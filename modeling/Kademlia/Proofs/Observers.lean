/-
What can be seen of a bucket, and what it will answer to a newcomer.  The
questions about a bucket are put in different ways, here as an equation, there as
a bound; in every state that a run leads to they agree, and they tell the answer.
-/
import Mathlib
import Kademlia.Proofs.Bounds

namespace Kademlia

namespace Bucket

variable {bucket : Bucket} {handle : Handle}

theorem isFull_iff : bucket.isFull = true ↔ bucket.count = bucket.limits.size := by
  simp [isFull]

theorem size_le_count_of_full (full : bucket.occupancy = .full) :
    bucket.limits.size ≤ bucket.count := by
  unfold occupancy at full
  split at full
  · cases full
  · split at full
    · assumption
    · cases full

/-- A bucket that has room for anybody is not full while it is empty. -/
theorem occupancy_eq_full_iff (husable : bucket.limits.Usable) :
    bucket.occupancy = .full ↔ bucket.limits.size ≤ bucket.count := by
  have hpositive : 1 ≤ bucket.limits.size := husable.1.trans husable.2
  constructor
  · exact size_le_count_of_full
  · intro hfull
    have hsome : bucket.count ≠ 0 := by omega
    rw [occupancy, if_neg hsome, if_pos hfull]

theorem isEmpty_iff_occupancy (bucket : Bucket) :
    bucket.isEmpty = true ↔ bucket.occupancy = .empty := by
  unfold occupancy
  split_ifs with hempty hfull
  · simp [isEmpty, hempty]
  · simp [isEmpty, hempty]
  · simp [isEmpty, hempty]

theorem isEmpty_iff_oldest? (bucket : Bucket) :
    bucket.isEmpty = true ↔ bucket.oldest? = none := by
  simp [isEmpty, count, oldest?]

namespace Bounded

/-- Members never exceed the size, so it makes no difference whether a bucket
asks that they reach it or that they equal it. -/
theorem isFull_iff_size_le (h : bucket.Bounded) :
    bucket.isFull = true ↔ bucket.limits.size ≤ bucket.count := by
  have hsize := h.size
  rw [isFull_iff]
  omega

theorem isFull_iff_remaining (h : bucket.Bounded) :
    bucket.isFull = true ↔ bucket.remaining = 0 := by
  rw [h.isFull_iff_size_le, remaining, Nat.sub_eq_zero_iff_le]

theorem not_isFull_iff (h : bucket.Bounded) :
    bucket.isFull = false ↔ bucket.count < bucket.limits.size := by
  rw [← Bool.not_eq_true, h.isFull_iff_size_le, Nat.not_le]

/-- The same holds for the members of one address. -/
theorem countFor_eq_perIp_iff (h : bucket.Bounded) (ip : Ip) :
    bucket.countFor ip = bucket.limits.perIp ↔
      bucket.limits.perIp ≤ bucket.countFor ip := by
  have haddress := h.perIp ip
  omega

theorem hasRoomFor_iff (h : bucket.Bounded) :
    bucket.HasRoomFor handle ↔
      bucket.contains handle.id = false ∧ bucket.isFull = false ∧
        bucket.countFor handle.ip ≠ bucket.limits.perIp := by
  rw [contains_eq_false_iff, h.not_isFull_iff, ne_eq,
    h.countFor_eq_perIp_iff, Nat.not_le]
  constructor
  · intro room
    exact ⟨room.fresh, room.size, room.perIp⟩
  · rintro ⟨fresh, size, perIp⟩
    exact ⟨fresh, size, perIp⟩

end Bounded

end Bucket

/-- In every state that a run leads to, a bucket refuses a peer whose identifier it
contains, else any peer if it is full, else one at whose address there are as many
members as may be.  All others it admits behind its members. -/
theorem admission_told_by_observers {session : Session}
    (reached : session.Reachable) (now : Instant) (newcomer : Handle) :
    let bucket := session.bucket
    let turn := session.step now (.add newcomer)
    (turn.answer = .refused (.duplicate newcomer.id) ↔
      bucket.contains newcomer.id = true) ∧
    (turn.answer = .refused (.full bucket.limits.size) ↔
      bucket.contains newcomer.id = false ∧ bucket.isFull = true) ∧
    (turn.answer = .refused (.tooManyFrom newcomer.ip bucket.limits.perIp) ↔
      bucket.contains newcomer.id = false ∧ bucket.isFull = false ∧
        bucket.countFor newcomer.ip = bucket.limits.perIp) ∧
    (turn.answer = .done ↔
      bucket.contains newcomer.id = false ∧ bucket.isFull = false ∧
        bucket.countFor newcomer.ip ≠ bucket.limits.perIp) ∧
    (turn.answer = .done →
      turn.after.bucket.members = bucket.members ++ [newcomer]) ∧
    (bucket.isFull = true ↔ bucket.occupancy = .full) ∧
    (bucket.isFull = true ↔ bucket.remaining = 0) ∧
    (bucket.isEmpty = true ↔ bucket.occupancy = .empty) ∧
    (bucket.isEmpty = true ↔ bucket.oldest? = none) := by
  intro bucket turn
  have hbounded : bucket.Bounded := reached.bounded
  refine ⟨?_, ?_, ?_, ?_, ?_, ?_, hbounded.isFull_iff_remaining,
    bucket.isEmpty_iff_occupancy, bucket.isEmpty_iff_oldest?⟩
  · rw [Session.answer_add_eq_refused_iff, Bucket.add_eq_duplicate_iff]
    simp [bucket]
  · rw [Session.answer_add_eq_refused_iff, Bucket.add_eq_full_iff,
      hbounded.isFull_iff_size_le]
    simp [bucket]
  · rw [Session.answer_add_eq_refused_iff, Bucket.add_eq_tooManyFrom_iff,
      hbounded.not_isFull_iff, hbounded.countFor_eq_perIp_iff]
    simp [bucket]
  · rw [Session.answer_add_eq_done_iff, hbounded.hasRoomFor_iff]
  · intro hdone
    have room := Session.answer_add_eq_done_iff.mp hdone
    show (session.step now (.add newcomer)).after.bucket.members = _
    rw [Session.step_add_of_room room]
  · rw [hbounded.isFull_iff_size_le, Bucket.occupancy_eq_full_iff reached.usable]

/-- A bucket of one place is full with its only member, and then that is reported
even to a peer of an address that is taken.  In a bucket with room left, the third
peer of one address is refused and a peer of another address is not. -/
theorem admission_told_by_observers_trial :
    let narrow := (Session.mk (.start ⟨1, 1⟩ (.fixed 7) 0) .sample).final
      [(1, .add (.sampleAt 0 1 1))]
    let wide := (Session.mk (.start .small (.fixed 7) 0) .sample).final
      [(1, .add (.sampleAt 0 1 1)), (2, .add (.sampleAt 1 2 1))]
    let newcomer : Handle := .sampleAt 2 3 1
    let stranger : Handle := .sampleAt 3 4 2
    narrow.Reachable ∧ wide.Reachable ∧
      (narrow.step 3 (.add (.sampleAt 4 1 9))).answer =
        .refused (.duplicate (.ofNat 1)) ∧
      (narrow.step 3 (.add newcomer)).answer = .refused (.full 1) ∧
      narrow.bucket.occupancy = .full ∧ narrow.bucket.remaining = 0 ∧
      (wide.step 3 (.add newcomer)).answer = .refused (.tooManyFrom newcomer.ip 2) ∧
      (wide.step 3 (.add stranger)).after.bucket.members =
        [.sampleAt 0 1 1, .sampleAt 1 2 1, stranger] ∧
      wide.bucket.occupancy ≠ .empty := by
  intro narrow wide newcomer stranger
  have hnarrow : narrow.Reachable :=
    .of_usable (by decide) (by decide) (.fixed 7) 0 .sample _
  have hwide : wide.Reachable :=
    .of_usable (by decide) (by decide) (.fixed 7) 0 .sample _
  obtain ⟨hstored, _⟩ := admission_told_by_observers hnarrow 3 (.sampleAt 4 1 9)
  obtain ⟨_, hfull, _, _, _, hoccupancy, hremaining, _⟩ :=
    admission_told_by_observers hnarrow 3 newcomer
  obtain ⟨_, _, hcrowded, _⟩ := admission_told_by_observers hwide 3 newcomer
  obtain ⟨_, _, _, hdone, hmembers, _, _, hempty, _⟩ :=
    admission_told_by_observers hwide 3 stranger
  have hisFull : narrow.bucket.isFull = true := by decide
  have hadmitted := hdone.mpr (by decide)
  refine ⟨hnarrow, hwide, hstored.mpr (by decide), hfull.mpr ⟨by decide, hisFull⟩,
    hoccupancy.mp hisFull, hremaining.mp hisFull, hcrowded.mpr (by decide),
    hmembers hadmitted, ?_⟩
  rw [ne_eq, ← hempty]
  decide

end Kademlia

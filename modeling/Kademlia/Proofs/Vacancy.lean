/-
Whom the removal of one member makes room for.  A removal always frees a place in
the bucket, but at an address only if the removed member was there; a candidate
that was refused for want of room can be refused for its address afterwards.
-/
import Mathlib
import Kademlia.Proofs.Bounds

namespace Kademlia

namespace Bucket

/-- A bucket from which one member was removed. -/
structure Vacated (bucket : Bucket) (member : Handle)
    (vacated : Bucket) : Prop where
  stored : member ∈ bucket.members
  members : vacated.members = bucket.members.erase member
  limits : vacated.limits = bucket.limits

namespace Vacated

variable {bucket vacated : Bucket} {member candidate : Handle}

theorem count_add_one (h : bucket.Vacated member vacated) :
    vacated.count + 1 = bucket.count := by
  rw [count, h.members, List.length_erase_add_one h.stored, count]

/-- There is one member less at its own address. -/
theorem countFor_add (h : bucket.Vacated member vacated) (ip : Ip) :
    vacated.countFor ip + (if member.ip = ip then 1 else 0) =
      bucket.countFor ip := by
  have hpositive : member.ip = ip → 0 < bucket.countFor ip := by
    rintro rfl
    exact List.countP_pos_iff.mpr ⟨member, h.stored, by simp⟩
  rw [countFor, h.members, List.countP_erase]
  by_cases hip : member.ip = ip
  · have hsome := hpositive hip
    simp only [h.stored, hip, countFor, decide_true, and_self, if_true] at hsome ⊢
    omega
  · simp [hip, countFor]

/-- The address of the removed member has room again. -/
theorem countFor_lt (h : bucket.Vacated member vacated)
    (hbounded : bucket.Bounded) :
    vacated.countFor member.ip < bucket.limits.perIp := by
  have hcount := h.countFor_add member.ip
  have hlimit := hbounded.perIp member.ip
  rw [if_pos rfl] at hcount
  omega

theorem countFor_of_ne (h : bucket.Vacated member vacated) {ip : Ip}
    (hip : member.ip ≠ ip) : vacated.countFor ip = bucket.countFor ip := by
  have hcount := h.countFor_add ip
  rwa [if_neg hip, Nat.add_zero] at hcount

theorem contains_eq_false (h : bucket.Vacated member vacated)
    (fresh : bucket.contains candidate.id = false) :
    vacated.contains candidate.id = false := by
  rw [contains_eq_false_iff] at fresh ⊢
  intro other hother
  rw [h.members] at hother
  exact fresh other (List.mem_of_mem_erase hother)

theorem contains_removed (h : bucket.Vacated member vacated)
    (hdistinct : (bucket.members.map Handle.id).Nodup) :
    vacated.contains member.id = false := by
  have hfind := find?_of_mem hdistinct h.stored
  rw [contains_eq_false_iff, h.members, ← without_eq_erase hfind]
  intro other hother
  exact ((mem_without_iff hdistinct).mp hother).2

/-- With a place free, the address of a fresh candidate decides. -/
theorem hasRoomFor_iff (h : bucket.Vacated member vacated)
    (hbounded : bucket.Bounded) (fresh : vacated.contains candidate.id = false) :
    vacated.HasRoomFor candidate ↔
      vacated.countFor candidate.ip < bucket.limits.perIp := by
  have hcount := h.count_add_one
  have hsize := hbounded.size
  rw [← h.limits] at hsize ⊢
  constructor
  · intro room
    exact room.perIp
  · intro haddress
    exact ⟨contains_eq_false_iff.mp fresh, by omega, haddress⟩

/-- Where an address has as many members as may be, only a removal there helps. -/
theorem hasRoomFor_iff_of_crowded (h : bucket.Vacated member vacated)
    (hbounded : bucket.Bounded) (fresh : vacated.contains candidate.id = false)
    (hcrowded : bucket.limits.perIp ≤ bucket.countFor candidate.ip) :
    vacated.HasRoomFor candidate ↔ member.ip = candidate.ip := by
  rw [h.hasRoomFor_iff hbounded fresh]
  constructor
  · intro hroom
    by_contra hip
    rw [h.countFor_of_ne hip] at hroom
    exact absurd hcrowded (Nat.not_le.mpr hroom)
  · intro hip
    rw [← hip]
    exact h.countFor_lt hbounded

/-- Another peer of the identifier and the address that went can come instead. -/
theorem hasRoomFor_of_twin (h : bucket.Vacated member vacated)
    (hbounded : bucket.Bounded) (hid : member.id = candidate.id)
    (hip : candidate.ip = member.ip) : vacated.HasRoomFor candidate := by
  have fresh := h.contains_removed hbounded.distinct
  rw [hid] at fresh
  apply (h.hasRoomFor_iff hbounded fresh).mpr
  rw [hip]
  exact h.countFor_lt hbounded

/-- As a place is free, only the address can be the reason to refuse a fresh
candidate. -/
theorem add_of_no_room (h : bucket.Vacated member vacated)
    (hbounded : bucket.Bounded) (fresh : vacated.contains candidate.id = false)
    (hnone : ¬ vacated.HasRoomFor candidate) (now : Instant) :
    vacated.add candidate now =
      .error (.tooManyFrom candidate.ip bucket.limits.perIp) := by
  have hcount := h.count_add_one
  have hsize := hbounded.size
  rw [h.hasRoomFor_iff hbounded fresh, Nat.not_lt] at hnone
  rw [← h.limits] at hsize hnone ⊢
  exact add_eq_tooManyFrom_iff.mpr ⟨fresh, by omega, hnone, rfl, rfl⟩

end Vacated

end Bucket

namespace Session

variable {session : Session} {member candidate : Handle}

theorem Reachable.step_remove (reached : session.Reachable)
    (stored : member ∈ session.bucket.members) (now : Instant) :
    (session.step now (.remove member)).answer = .peer member ∧
      session.bucket.Vacated member
        (session.step now (.remove member)).after.bucket := by
  have hfind := Bucket.find?_of_mem reached.bounded.distinct stored
  rw [step_remove_of_find? hfind]
  exact ⟨rfl, stored, Bucket.without_eq_erase hfind, rfl⟩

/-- A refused candidate changes nothing, so the removal finds the same bucket. -/
theorem Reachable.step_remove_of_refused (reached : session.Reachable)
    (stored : member ∈ session.bucket.members) {offeredAt : Instant}
    {error : BucketError}
    (hrefused : (session.step offeredAt (.add candidate)).answer = .refused error)
    (now : Instant) :
    let removal :=
      (session.step offeredAt (.add candidate)).after.step now (.remove member)
    removal.answer = .peer member ∧
      session.bucket.Vacated member removal.after.bucket := by
  rw [step_add_of_error (answer_add_eq_refused_iff.mp hrefused)]
  exact reached.step_remove stored now

/-- A fresh candidate comes behind the members that stayed, or there are too many of
its address and nothing changes. -/
theorem retry_of_fresh {vacated : Session}
    (h : session.bucket.Vacated member vacated.bucket)
    (hbounded : session.bucket.Bounded)
    (fresh : vacated.bucket.contains candidate.id = false) (now : Instant) :
    let retry := vacated.step now (.add candidate)
    (retry.answer = .done → retry.after.bucket.members =
      session.bucket.members.erase member ++ [candidate]) ∧
    (retry.answer ≠ .done →
      retry.answer =
        .refused (.tooManyFrom candidate.ip session.bucket.limits.perIp) ∧
      retry.after = vacated) := by
  constructor
  · intro hdone
    rw [step_add_of_room (answer_add_eq_done_iff.mp hdone), h.members]
  · intro hnone
    rw [ne_eq, answer_add_eq_done_iff] at hnone
    rw [step_add_of_error (h.add_of_no_room hbounded fresh hnone now)]
    exact ⟨rfl, rfl⟩

end Session

/-- A candidate is refused, a member removed, and the candidate offered again.
After a refusal for want of room it is admitted exactly if its address has a place
left; after one for its address, exactly if the member removed was there; and after
one as a duplicate, if of that very member and at its address. -/
theorem removal_makes_room {session : Session} (reached : session.Reachable)
    {member : Handle} (stored : member ∈ session.bucket.members)
    (candidate : Handle) (offeredAt removedAt retriedAt : Instant) :
    let bucket := session.bucket
    let trial := session.step offeredAt (.add candidate)
    let removal := trial.after.step removedAt (.remove member)
    let retry := removal.after.step retriedAt (.add candidate)
    let staying :=
      bucket.countFor candidate.ip - if member.ip = candidate.ip then 1 else 0
    let crowded : Answer := .refused (.tooManyFrom candidate.ip bucket.limits.perIp)
    ((∃ capacity, trial.answer = .refused (.full capacity)) →
      removal.answer = .peer member ∧
      (retry.answer = .done ↔ staying < bucket.limits.perIp) ∧
      (retry.answer = .done →
        retry.after.bucket.members = bucket.members.erase member ++ [candidate]) ∧
      (retry.answer ≠ .done → retry.answer = crowded ∧
        retry.after.bucket.members = bucket.members.erase member ∧
        retry.after.bucket.count + 1 = bucket.limits.size)) ∧
    ((∃ ip limit, trial.answer = .refused (.tooManyFrom ip limit)) →
      (retry.answer = .done ↔ member.ip = candidate.ip) ∧
      (member.ip ≠ candidate.ip → retry.answer = crowded)) ∧
    ((∃ id, trial.answer = .refused (.duplicate id)) →
      member.id = candidate.id → candidate.ip = member.ip →
        retry.answer = .done) := by
  intro bucket trial removal retry staying crowded
  have hbounded : bucket.Bounded := reached.bounded
  have hremoval : ∀ error, trial.answer = .refused error →
      removal.answer = .peer member ∧ bucket.Vacated member removal.after.bucket :=
    fun _ hrefused => reached.step_remove_of_refused stored hrefused removedAt
  have hdone : retry.answer = .done ↔ removal.after.bucket.HasRoomFor candidate :=
    Session.answer_add_eq_done_iff
  refine ⟨?_, ?_, ?_⟩
  · rintro ⟨capacity, hfull⟩
    obtain ⟨hremoved, hvacated⟩ := hremoval _ hfull
    obtain ⟨hunknown, hsize, _⟩ :=
      Bucket.add_eq_full_iff.mp (Session.answer_add_eq_refused_iff.mp hfull)
    have hfresh := hvacated.contains_eq_false hunknown
    have hstaying : removal.after.bucket.countFor candidate.ip = staying :=
      Nat.eq_sub_of_add_eq (hvacated.countFor_add candidate.ip)
    obtain ⟨hmembers, hcrowded⟩ :=
      Session.retry_of_fresh hvacated hbounded hfresh retriedAt
    refine ⟨hremoved, ?_, hmembers, ?_⟩
    · rw [hdone, hvacated.hasRoomFor_iff hbounded hfresh, hstaying]
    · intro hrefused
      obtain ⟨hanswer, hafter⟩ := hcrowded hrefused
      refine ⟨hanswer, ?_, ?_⟩
      · rw [hafter, hvacated.members]
      · rw [hafter, hvacated.count_add_one]
        exact Nat.le_antisymm hbounded.size hsize
  · rintro ⟨ip, limit, hrefused⟩
    obtain ⟨_, hvacated⟩ := hremoval _ hrefused
    obtain ⟨hunknown, _, haddress, _⟩ :=
      Bucket.add_eq_tooManyFrom_iff.mp
        (Session.answer_add_eq_refused_iff.mp hrefused)
    have hfresh := hvacated.contains_eq_false hunknown
    have hthere := hdone.trans
      (hvacated.hasRoomFor_iff_of_crowded hbounded hfresh haddress)
    refine ⟨hthere, ?_⟩
    intro hip
    have hcrowded := (Session.retry_of_fresh hvacated hbounded hfresh retriedAt).2
    exact (hcrowded (mt hthere.mp hip)).1
  · rintro ⟨id, hduplicate⟩ hid hip
    obtain ⟨_, hvacated⟩ := hremoval _ hduplicate
    exact hdone.mpr (hvacated.hasRoomFor_of_twin hbounded hid hip)

/-- The oldest of four members makes way for a candidate of a third address.  For
one of the second address, where nobody went, there is no room, and a place stays
free.  In a bucket that is not full, a third peer of the first address and a second
peer of the oldest member's identifier are admitted once that member is gone. -/
theorem removal_makes_room_trial :
    let oldest : Handle := .sampleAt 0 1 1
    let wide := (Session.mk (.start .small (.fixed 7) 0) .sample).final
      [(1, .add oldest), (2, .add (.sampleAt 1 2 1)), (3, .add (.sampleAt 2 3 2))]
    let full := wide.final [(4, .add (.sampleAt 3 4 2))]
    let stranger : Handle := .sampleAt 4 5 3
    let neighbour : Handle := .sampleAt 5 6 2
    let third : Handle := .sampleAt 6 7 1
    let twin : Handle := .sampleAt 7 1 1
    full.Reachable ∧ wide.Reachable ∧
      oldest ∈ full.bucket.members ∧ oldest ∈ wide.bucket.members ∧
      (full.step 5 (.add stranger)).answer = .refused (.full 4) ∧
      (((full.step 5 (.add stranger)).after.step 6 (.remove oldest)).after.step 7
        (.add stranger)).after.bucket.members =
          full.bucket.members.erase oldest ++ [stranger] ∧
      (full.step 5 (.add neighbour)).answer = .refused (.full 4) ∧
      (((full.step 5 (.add neighbour)).after.step 6 (.remove oldest)).after.step 7
        (.add neighbour)).answer = .refused (.tooManyFrom neighbour.ip 2) ∧
      (((full.step 5 (.add neighbour)).after.step 6 (.remove oldest)).after.step 7
        (.add neighbour)).after.bucket.count + 1 = full.bucket.limits.size ∧
      (wide.step 5 (.add third)).answer = .refused (.tooManyFrom third.ip 2) ∧
      (((wide.step 5 (.add third)).after.step 6 (.remove oldest)).after.step 7
        (.add third)).answer = .done ∧
      (wide.step 5 (.add twin)).answer = .refused (.duplicate oldest.id) ∧
      (((wide.step 5 (.add twin)).after.step 6 (.remove oldest)).after.step 7
        (.add twin)).answer = .done := by
  intro oldest wide full stranger neighbour third twin
  have hwide : wide.Reachable :=
    .of_usable (by decide) (by decide) (.fixed 7) 0 .sample _
  have hfull : full.Reachable := hwide.final _
  have hstored : oldest ∈ full.bucket.members := by decide
  have hmember : oldest ∈ wide.bucket.members := by decide
  have hstranger :
      (full.step 5 (.add stranger)).answer = .refused (.full 4) := by decide
  have hneighbour :
      (full.step 5 (.add neighbour)).answer = .refused (.full 4) := by decide
  have hthird : (wide.step 5 (.add third)).answer =
      .refused (.tooManyFrom third.ip 2) := by decide
  have htwin : (wide.step 5 (.add twin)).answer =
      .refused (.duplicate oldest.id) := by decide
  obtain ⟨_, hdone, hmembers, _⟩ :=
    (removal_makes_room hfull hstored stranger 5 6 7).1 ⟨4, hstranger⟩
  obtain ⟨_, hnot, _, hcrowded⟩ :=
    (removal_makes_room hfull hstored neighbour 5 6 7).1 ⟨4, hneighbour⟩
  obtain ⟨hanswer, _, hshort⟩ := hcrowded (mt hnot.mp (by decide))
  have hthere := (removal_makes_room hwide hmember third 5 6 7).2.1 ⟨_, _, hthird⟩
  have hagain :=
    (removal_makes_room hwide hmember twin 5 6 7).2.2 ⟨_, htwin⟩ rfl rfl
  exact ⟨hfull, hwide, hstored, hmember, hstranger,
    hmembers (hdone.mpr (by decide)),
    hneighbour, hanswer, hshort, hthird, hthere.1.mpr rfl, htwin, hagain⟩

end Kademlia

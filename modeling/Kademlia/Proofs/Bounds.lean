/-
The bounds that a bucket never leaves.  Whatever is done to a bucket and to the
peers it shares, no identifier is stored twice, no address has more members than
it may, and there are never more members than there is room for.
-/
import Mathlib
import Kademlia.Bucket.Lemmas

namespace Kademlia

namespace Bucket

/-- A bucket as one of the ways to make one leaves it. -/
inductive Built : Bucket → Prop
  | standard (entropy : EntropySource) (now : Instant) :
      Built (.standard entropy now)
  | created {limits : Limits} {entropy : EntropySource} {now : Instant}
      {bucket : Bucket} (made : create limits entropy now = .ok bucket) :
      Built bucket
  | provided {α : Type} [LimitsProvider α] {provider : α}
      {entropy : EntropySource} {now : Instant} {bucket : Bucket}
      (made : ofProvider provider entropy now = .ok bucket) : Built bucket

/-- Limits make a bucket, ask for more room than there can be, or are refused. -/
theorem create_cases (limits : Limits) (entropy : EntropySource) (now : Instant) :
    (limits.Usable ∧ limits.size ≤ maxCapacity ∧
        create limits entropy now = .ok (start limits entropy now)) ∨
      (limits.Usable ∧ ¬ limits.size ≤ maxCapacity ∧
        create limits entropy now = .error .capacityOverflow) ∨
      (¬ limits.Usable ∧ ∃ cause,
        create limits entropy now = .error (.refused cause)) := by
  rw [← Limits.validate_eq_ok_iff, create]
  cases limits.validate with
  | ok value =>
      by_cases hroom : limits.size ≤ maxCapacity
      · exact .inl ⟨rfl, hroom, if_pos hroom⟩
      · exact .inr (.inl ⟨rfl, hroom, if_neg hroom⟩)
  | error cause => exact .inr (.inr ⟨nofun, _, rfl⟩)

/-- A bucket is made of limits that can be used and leave room for it. -/
theorem create_eq_ok_iff {limits : Limits} {entropy : EntropySource}
    {now : Instant} {bucket : Bucket} :
    create limits entropy now = .ok bucket ↔
      limits.Usable ∧ limits.size ≤ maxCapacity ∧
        bucket = start limits entropy now := by
  rcases create_cases limits entropy now with
    ⟨husable, hroom, h⟩ | ⟨husable, hroom, h⟩ | ⟨husable, cause, h⟩
  · simp [h, husable, hroom, eq_comm]
  · simp [h, hroom]
  · simp [h, husable]

section Built

variable {bucket : Bucket}

/-- Every bucket starts empty, under limits that can be used. -/
theorem Built.eq_start (h : bucket.Built) :
    bucket.limits.Usable ∧ bucket.limits.size ≤ maxCapacity ∧
      ∃ entropy now, bucket = start bucket.limits entropy now := by
  cases h with
  | standard entropy now =>
      have husable : Limits.standard.Usable := by decide
      have hroom : Limits.standard.size ≤ maxCapacity := by decide
      exact ⟨husable, hroom, entropy, now, rfl⟩
  | @created limits entropy now _ made =>
      obtain ⟨husable, hroom, rfl⟩ := create_eq_ok_iff.mp made
      exact ⟨husable, hroom, entropy, now, rfl⟩
  | @provided _ _ provider entropy now _ made =>
      obtain ⟨husable, hroom, rfl⟩ := create_eq_ok_iff.mp made
      exact ⟨husable, hroom, entropy, now, rfl⟩

theorem Built.usable (h : bucket.Built) : bucket.limits.Usable :=
  h.eq_start.1

theorem Built.size_le (h : bucket.Built) : bucket.limits.size ≤ maxCapacity :=
  h.eq_start.2.1

theorem Built.members_eq_nil (h : bucket.Built) : bucket.members = [] := by
  obtain ⟨_, _, entropy, now, heq⟩ := h.eq_start
  rw [heq]
  rfl

end Built

/-- The bounds on the members of a bucket. -/
structure Bounded (bucket : Bucket) : Prop where
  distinct : (bucket.members.map Handle.id).Nodup
  perIp : ∀ ip, bucket.countFor ip ≤ bucket.limits.perIp
  size : bucket.count ≤ bucket.limits.size

namespace Bounded

variable {bucket after : Bucket} {handle : Handle} {id : NodeId}

theorem of_members_eq_nil (hempty : bucket.members = []) : bucket.Bounded := by
  constructor
  · simp [hempty]
  · simp [countFor, hempty]
  · simp [count, hempty]

/-- Bounds say nothing about order, and fewer members keep them too. -/
theorem of_subperm (h : bucket.Bounded) (hlimits : after.limits = bucket.limits)
    (hmembers : after.members.Subperm bucket.members) : after.Bounded := by
  constructor
  · obtain ⟨kept, hperm, hsub⟩ := hmembers
    have hkept : (kept.map Handle.id).Nodup :=
      h.distinct.sublist (hsub.map Handle.id)
    exact (hperm.map Handle.id).nodup_iff.mp hkept
  · intro ip
    rw [hlimits]
    exact (hmembers.countP_le _).trans (h.perIp ip)
  · rw [hlimits]
    exact hmembers.length_le.trans h.size

/-- A newcomer that was let in keeps the bounds, because each was asked for. -/
theorem of_admitted (h : bucket.Bounded) (room : bucket.HasRoomFor handle)
    (hlimits : after.limits = bucket.limits)
    (hmembers : after.members = bucket.members ++ [handle]) : after.Bounded := by
  constructor
  · rw [hmembers, List.map_append, List.map_singleton, List.nodup_append]
    refine ⟨h.distinct, List.nodup_singleton _, ?_⟩
    intro id hid other hother
    obtain ⟨member, hmember, rfl⟩ := List.mem_map.mp hid
    rw [List.mem_singleton.mp hother]
    exact room.fresh member hmember
  · intro ip
    rw [hlimits, countFor, hmembers, List.countP_append]
    by_cases hip : handle.ip = ip
    · subst hip
      simpa [countFor] using room.perIp
    · have hold := h.perIp ip
      simpa [countFor, hip] using hold
  · rw [hlimits, count, hmembers, List.length_append]
    exact room.size

theorem nodup_members (h : bucket.Bounded) : bucket.members.Nodup :=
  h.distinct.of_map Handle.id

theorem count_add_remaining (h : bucket.Bounded) :
    bucket.count + bucket.remaining = bucket.limits.size :=
  Nat.add_sub_cancel' h.size

end Bounded

/-- A bucket has room for a newcomer with which it would still keep its bounds. -/
theorem HasRoomFor.of_bounded {bucket : Bucket} {handle : Handle}
    (h : Bounded { bucket with members := bucket.members ++ [handle] }) :
    bucket.HasRoomFor handle := by
  constructor
  · intro member hmember
    have hdistinct := h.distinct
    rw [List.map_append, List.nodup_append] at hdistinct
    exact hdistinct.2.2 member.id (List.mem_map_of_mem hmember) handle.id (by simp)
  · have hsize := h.size
    rw [count, List.length_append] at hsize
    exact hsize
  · have haddress := h.perIp handle.ip
    rw [countFor, List.countP_append] at haddress
    simpa [countFor] using haddress

end Bucket

namespace Session

/-- Sessions that actions lead to, from a bucket just made among any peers. -/
inductive Reachable : Session → Prop
  | start {bucket : Bucket} (built : bucket.Built) (roster : Roster) :
      Reachable ⟨bucket, roster⟩
  | step {session : Session} (reached : Reachable session) (now : Instant)
      (action : Action) : Reachable (session.step now action).after

theorem Reachable.final {session : Session} (h : session.Reachable)
    (log : List (Instant × Action)) : (session.final log).Reachable := by
  induction log generalizing session with
  | nil => exact h
  | cons entry rest ih => exact ih (h.step entry.1 entry.2)

theorem Reachable.of_usable {limits : Limits} (h : limits.Usable)
    (hroom : limits.size ≤ Bucket.maxCapacity) (entropy : EntropySource)
    (now : Instant) (roster : Roster) (log : List (Instant × Action)) :
    ((Session.mk (.start limits entropy now) roster).final log).Reachable := by
  have made := Bucket.create_eq_ok_iff.mpr
    ⟨h, hroom, (rfl : Bucket.start limits entropy now = _)⟩
  exact (Reachable.start (.created made) roster).final log

/-- One step keeps the bounds.  A removal takes from the members and a move only
reorders them, so a newcomer is all that has to be looked at. -/
theorem bounded_step {session : Session} (h : session.bucket.Bounded)
    (now : Instant) (action : Action) :
    (session.step now action).after.bucket.Bounded := by
  have hlimits := session.limits_step now action
  cases session.step_shift now action with
  | admitted handle _ room outcome =>
      exact h.of_admitted room hlimits (by rw [outcome])
  | removed id handle _ found outcome =>
      apply h.of_subperm hlimits
      rw [outcome]
      exact (session.bucket.members_without_sublist id).subperm
  | moved id handle _ found outcome =>
      apply h.of_subperm hlimits
      rw [outcome]
      exact (Bucket.perm_of_find? found).subperm
  | kept _ outcome =>
      apply h.of_subperm hlimits
      rw [outcome]

theorem Reachable.bounded {session : Session} (h : session.Reachable) :
    session.bucket.Bounded := by
  induction h with
  | start built roster => exact .of_members_eq_nil built.members_eq_nil
  | step reached now action ih => exact bounded_step ih now action

theorem Reachable.usable {session : Session} (h : session.Reachable) :
    session.bucket.limits.Usable := by
  induction h with
  | start built roster => exact built.usable
  | step reached now action ih =>
      rw [limits_step]
      exact ih

end Session

/-- After every step of every run from a bucket just made: no two members have
one identifier, no address has more members than the limit, the members fit the
bucket, and the room that is left makes up the rest exactly. -/
theorem bounds_hold_throughout {bucket : Bucket} (built : bucket.Built)
    (roster : Roster) (log : List (Instant × Action)) (steps : Nat) :
    let reached := ((Session.mk bucket roster).final (log.take steps)).bucket
    reached.limits = bucket.limits ∧
      (reached.members.map Handle.id).Nodup ∧
      (∀ ip, (reached.members.countP fun member => member.ip = ip) ≤
        bucket.limits.perIp) ∧
      reached.members.length ≤ bucket.limits.size ∧
      reached.count + reached.remaining = bucket.limits.size := by
  intro reached
  have hlimits : reached.limits = bucket.limits :=
    Session.limits_final ⟨bucket, roster⟩ (log.take steps)
  have hbounded : reached.Bounded :=
    ((Session.Reachable.start built roster).final (log.take steps)).bounded
  rw [← hlimits]
  exact ⟨rfl, hbounded.distinct, hbounded.perIp, hbounded.size,
    hbounded.count_add_remaining⟩

/-- A third peer of one address, a repeated identifier and the removal of a
member through another handle, with changes to shared peers in between. -/
theorem bounds_hold_throughout_trial :
    let bucket := Bucket.start .small (.fixed 7) 0
    let log : List (Instant × Action) :=
      [(1, .add (.sampleAt 0 1 1)), (2, .add (.sampleAt 1 2 1)),
        (3, .add (.sampleAt 2 3 1)), (4, .add (.sampleAt 3 1 9)),
        (5, .touch (.ofNat 1)), (6, .change 1 (.setAlive false)), (7, .pick),
        (8, .remove (.sampleAt 4 2 8)), (9, .refresh 3)]
    let reached := ((Session.mk bucket .sample).final (log.take 9)).bucket
    bucket.Built ∧ reached.members = [.sampleAt 0 1 1] ∧
      reached.limits = bucket.limits ∧
      (reached.members.map Handle.id).Nodup ∧
      (∀ ip, (reached.members.countP fun member => member.ip = ip) ≤
        bucket.limits.perIp) ∧
      reached.members.length ≤ bucket.limits.size ∧
      reached.count + reached.remaining = bucket.limits.size := by
  intro bucket log reached
  have made : Bucket.create .small (.fixed 7) 0 = .ok bucket := rfl
  have built : bucket.Built := .created made
  refine ⟨built, by decide, ?_⟩
  exact bounds_hold_throughout built .sample log 9

end Kademlia

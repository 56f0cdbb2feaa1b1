/-
Ways through a bucket that come to the same.  To touch a member moves it where a
removal and a new admission would put it; a removal undoes an admission; and who has
just been touched stays in place when touched again.
-/
import Mathlib
import Kademlia.Proofs.Updates

namespace Kademlia

namespace Bucket

variable {bucket : Bucket} {member newcomer : Handle} {id : NodeId}

/-- There was room for the removed member, with all the others there. -/
theorem Bounded.hasRoomFor_removed (h : bucket.Bounded)
    (hfind : bucket.find? id = some member) (now : Instant) :
    HasRoomFor
      { bucket with members := bucket.without id, lastUpdated := now } member :=
  .of_bounded (h.of_subperm rfl (perm_of_find? hfind).subperm)

/-- The newcomer just admitted is found, and the others are the members before. -/
theorem Bounded.find?_admitted (h : bucket.Bounded)
    (room : bucket.HasRoomFor newcomer) (now : Instant) :
    let admitted : Bucket :=
      { bucket with members := bucket.members ++ [newcomer], lastUpdated := now }
    admitted.find? newcomer.id = some newcomer ∧
      admitted.without newcomer.id = bucket.members := by
  intro admitted
  have hbounded : admitted.Bounded := h.of_admitted room rfl rfl
  obtain ⟨hfind, hmoved⟩ := find?_newest hbounded.distinct rfl
  exact ⟨hfind, List.append_cancel_right hmoved⟩

end Bucket

namespace Session

variable {session : Session} {member asked newcomer : Handle}

/-- Removed and admitted again, a member stands behind all the others. -/
theorem step_readmit (hbounded : session.bucket.Bounded)
    (hfind : session.bucket.find? asked.id = some member)
    (removedAt readmittedAt : Instant) :
    (session.step removedAt (.remove asked)).after.step readmittedAt (.add member) =
      ⟨.done,
        { session with
          bucket := { session.bucket with
            members := session.bucket.without asked.id ++ [member]
            lastUpdated := readmittedAt } },
        [.added member.contact
          ((session.bucket.without asked.id).length + 1)]⟩ := by
  have room := hbounded.hasRoomFor_removed hfind removedAt
  rw [step_remove_of_find? hfind]
  exact step_add_of_room room readmittedAt

/-- Admitted and removed again, a peer leaves the members as they were. -/
theorem step_remove_admitted (hbounded : session.bucket.Bounded)
    (room : session.bucket.HasRoomFor newcomer) (hid : asked.id = newcomer.id)
    (admittedAt removedAt : Instant) :
    (session.step admittedAt (.add newcomer)).after.step removedAt (.remove asked) =
      ⟨.peer newcomer,
        { session with bucket := { session.bucket with lastUpdated := removedAt } },
        [.removed newcomer.contact]⟩ := by
  obtain ⟨hfind, hwithout⟩ := hbounded.find?_admitted room admittedAt
  rw [← hid] at hfind hwithout
  rw [step_add_of_room room]
  refine (step_remove_of_find? hfind removedAt).trans ?_
  rw [hwithout]

/-- Whoever was touched is the newest member, so a second touch finds it in
place. -/
theorem members_touch_touch (hbounded : session.bucket.Bounded) (id : NodeId)
    (first second : Instant) :
    ((session.step first (.touch id)).after.step second
      (.touch id)).after.bucket.members =
      (session.step first (.touch id)).after.bucket.members := by
  cases hfind : session.bucket.find? id with
  | none =>
      rw [step_touch_of_absent hfind first]
      exact congrArg (·.after.bucket.members) (step_touch_of_absent hfind second)
  | some member =>
      have hafter := bounded_step hbounded first (.touch id)
      rw [step_touch_of_find? hfind] at hafter ⊢
      obtain ⟨hnewest, hplace⟩ := Bucket.find?_newest hafter.distinct rfl
      rw [Bucket.id_of_find? hfind] at hnewest hplace
      have htwice := step_touch_of_find? hnewest second
      exact (congrArg (·.after.bucket.members) htwice).trans hplace

end Session

/-- To remove a member and admit it again always succeeds, and leaves the members in
the order that touching the member does.  To remove a peer just admitted leaves the
members as they were, and a second touch in a row changes no order. -/
theorem touch_is_readmission {session : Session} (reached : session.Reachable) :
    (∀ asked : Handle, session.bucket.contains asked.id = true →
      ∀ removedAt readmittedAt touchedAt, ∃ member : Handle,
      let removal := session.step removedAt (.remove asked)
      let readmission := removal.after.step readmittedAt (.add member)
      let touch := session.step touchedAt (.touch asked.id)
      removal.answer = .peer member ∧ readmission.answer = .done ∧
        touch.answer = .done ∧
        readmission.after.bucket.members = touch.after.bucket.members) ∧
    (∀ newcomer admittedAt,
      let admission := session.step admittedAt (.add newcomer)
      admission.answer = .done → ∀ (asked : Handle) removedAt,
      asked.id = newcomer.id →
      let removal := admission.after.step removedAt (.remove asked)
      removal.answer = .peer newcomer ∧
        removal.after.bucket.members = session.bucket.members) ∧
    (∀ id first second,
      let once := session.step first (.touch id)
      let twice := once.after.step second (.touch id)
      twice.after.bucket.members = once.after.bucket.members) := by
  have hbounded := reached.bounded
  refine ⟨?_, ?_, ?_⟩
  · intro asked hstored removedAt readmittedAt touchedAt
    obtain ⟨member, hfind⟩ := Option.isSome_iff_exists.mp hstored
    refine ⟨member, ?_⟩
    intro removal readmission touch
    have hremoval : removal = _ := Session.step_remove_of_find? hfind removedAt
    have hreadmission : readmission = _ :=
      Session.step_readmit hbounded hfind removedAt readmittedAt
    have htouch : touch = _ := Session.step_touch_of_find? hfind touchedAt
    rw [hremoval, hreadmission, htouch]
    exact ⟨rfl, rfl, rfl, rfl⟩
  · intro newcomer admittedAt admission hdone asked removedAt hid removal
    have room := Session.answer_add_eq_done_iff.mp hdone
    have hremoval : removal = _ :=
      Session.step_remove_admitted hbounded room hid admittedAt removedAt
    rw [hremoval]
    exact ⟨rfl, rfl⟩
  · intro id first second
    exact Session.members_touch_touch hbounded id first second

/-- A full bucket with as many members of one address as may be.  Its oldest member,
of that address, is removed with another handle and let in again, and it is touched
twice.  In a bucket with a place left, an admission is undone. -/
theorem touch_is_readmission_trial :
    let oldest : Handle := .sampleAt 0 1 1
    let twin : Handle := .sampleAt 9 1 7
    let newcomer : Handle := .sampleAt 3 4 2
    let wide := (Session.mk (.start .small (.fixed 7) 0) .sample).final
      [(1, .add oldest), (2, .add (.sampleAt 1 2 1)), (3, .add (.sampleAt 2 3 2))]
    let full := wide.final [(4, .add newcomer)]
    wide.Reachable ∧ full.Reachable ∧ full.bucket.isFull = true ∧
      full.bucket.countFor oldest.ip = full.bucket.limits.perIp ∧
      (full.step 5 (.remove twin)).answer = .peer oldest ∧
      ((full.step 5 (.remove twin)).after.step 6 (.add oldest)).answer = .done ∧
      ((full.step 5 (.remove twin)).after.step 6
        (.add oldest)).after.bucket.members =
        (full.step 7 (.touch twin.id)).after.bucket.members ∧
      (full.step 7 (.touch twin.id)).after.bucket.members =
        [.sampleAt 1 2 1, .sampleAt 2 3 2, newcomer, oldest] ∧
      ((full.step 7 (.touch twin.id)).after.step 8
        (.touch twin.id)).after.bucket.members =
        (full.step 7 (.touch twin.id)).after.bucket.members ∧
      (wide.step 5 (.add newcomer)).answer = .done ∧
      ((wide.step 5 (.add newcomer)).after.step 6
        (.remove newcomer)).after.bucket.members =
        wide.bucket.members := by
  intro oldest twin newcomer wide full
  have hwide : wide.Reachable :=
    .of_usable (by decide) (by decide) (.fixed 7) 0 .sample _
  have hfull : full.Reachable := hwide.final _
  obtain ⟨hreadmitted, _, htwice⟩ := touch_is_readmission hfull
  obtain ⟨member, hremoved, hdone, _, hmembers⟩ :=
    hreadmitted twin (by decide) 5 6 7
  have holdest : (full.step 5 (.remove twin)).answer = .peer oldest := by decide
  obtain rfl : member = oldest := Answer.peer.inj (hremoved.symm.trans holdest)
  have hadmitted : (wide.step 5 (.add newcomer)).answer = .done := by decide
  obtain ⟨_, hundone⟩ :=
    (touch_is_readmission hwide).2.1 newcomer 5 hadmitted newcomer 6 rfl
  exact ⟨hwide, hfull, by decide, by decide, hremoved, hdone, hmembers, by decide,
    htwice twin.id 7 8, hadmitted, hundone⟩

end Kademlia

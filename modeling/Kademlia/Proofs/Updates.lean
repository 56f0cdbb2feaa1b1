/-
What a refused action leaves behind, and when a bucket was last changed.  A
refusal changes nothing but the count of reads; the moment of the last change is
the clock reading of the last action that admitted, removed or moved a member.
-/
import Mathlib
import Kademlia.Proofs.Bounds

namespace Kademlia

/-- Asks a bucket to admit, remove or move a member. -/
def Action.mutates : Action → Bool
  | .add _ | .remove _ | .touch _ => true
  | _ => false

/-- Asks a bucket for a random member. -/
def Action.picks : Action → Bool
  | .pick => true
  | _ => false

def Answer.accepts : Answer → Bool
  | .refused _ => false
  | _ => true

/-- A change of the members was asked for and not refused. -/
def Entry.updates (entry : Entry) : Bool :=
  entry.action.mutates && entry.answer.accepts

namespace Bucket

variable {bucket : Bucket} {newest : Handle} {older : List Handle}

/-- The newest member is found under its identifier, and taking it from its place
to the end leaves the order as it was. -/
theorem find?_newest (hdistinct : (bucket.members.map Handle.id).Nodup)
    (hmembers : bucket.members = older ++ [newest]) :
    bucket.find? newest.id = some newest ∧
      bucket.without newest.id ++ [newest] = bucket.members := by
  have holder : ∀ handle ∈ older, handle.id ≠ newest.id := by
    intro handle hmem
    rw [hmembers, List.map_append, List.nodup_append] at hdistinct
    exact hdistinct.2.2 handle.id (List.mem_map_of_mem hmem) newest.id (by simp)
  constructor
  · rw [find?, hmembers, List.find?_append,
      List.find?_eq_none.mpr (by simpa using holder)]
    simp
  · rw [without, hmembers, List.eraseP_append_right _ (by simpa using holder)]
    simp

end Bucket

namespace Session

variable {session : Session} {action : Action} {now : Instant} {error : BucketError}

/-- Only a pick that is refused leaves a trace, the read of the source. -/
theorem after_of_refused
    (hrefused : (session.step now action).answer = .refused error) :
    (session.step now action).after = session ∨
      action = .pick ∧ (session.step now action).after =
        { session with bucket :=
          { session.bucket with reads := session.bucket.reads + 1 } } := by
  cases action with
  | add handle =>
      cases hadd : session.bucket.add handle now with
      | ok bucket => simp [step, hadd] at hrefused
      | error error =>
          rw [step_add_of_error hadd]
          exact Or.inl rfl
  | remove handle =>
      cases hfind : session.bucket.find? handle.id with
      | none =>
          rw [step_remove_of_absent hfind]
          exact Or.inl rfl
      | some member => simp [step_remove_of_find? hfind] at hrefused
  | touch id =>
      cases hfind : session.bucket.find? id with
      | none =>
          rw [step_touch_of_absent hfind]
          exact Or.inl rfl
      | some member => simp [step_touch_of_find? hfind] at hrefused
  | pick => exact Or.inr ⟨rfl, rfl⟩
  | change slot change => simp [step, Session.change] at hrefused
  | refresh slot => simp [step, Session.change] at hrefused
  | _ => exact Or.inl rfl

/-- Limits and source of a bucket stay.  The moment of the last change is set by a
change of the members, and the source is read by a pick. -/
theorem bucket_step (session : Session) (now : Instant) (action : Action) :
    (session.step now action).after.bucket =
      { session.bucket with
        members := (session.step now action).after.bucket.members
        lastUpdated :=
          if Entry.updates ⟨action, (session.step now action).answer⟩ then now
          else session.bucket.lastUpdated
        reads := session.bucket.reads + if action.picks then 1 else 0 } := by
  cases action with
  | add handle =>
      by_cases room : session.bucket.HasRoomFor handle
      · rw [step_add_of_room room]
        rfl
      · obtain ⟨error, hstep⟩ := step_add_of_no_room room now
        rw [hstep]
        rfl
  | remove handle =>
      cases hfind : session.bucket.find? handle.id with
      | none =>
          rw [step_remove_of_absent hfind]
          rfl
      | some member =>
          rw [step_remove_of_find? hfind]
          rfl
  | touch id =>
      cases hfind : session.bucket.find? id with
      | none =>
          rw [step_touch_of_absent hfind]
          rfl
      | some member =>
          rw [step_touch_of_find? hfind]
          rfl
  | _ => rfl

theorem lastUpdated_step (session : Session) (now : Instant) (action : Action) :
    (session.step now action).after.bucket.lastUpdated =
      if Entry.updates ⟨action, (session.step now action).answer⟩ then now
      else session.bucket.lastUpdated :=
  congrArg Bucket.lastUpdated (session.bucket_step now action)

/-- The clock readings of the actions that changed the members. -/
def updates (session : Session) : List (Instant × Action) → List Instant
  | [] => []
  | (now, action) :: rest =>
      let turn := session.step now action
      if Entry.updates ⟨action, turn.answer⟩ then now :: turn.after.updates rest
      else turn.after.updates rest

/-- A bucket was last changed at the last of the changes of a run, or before the
run. -/
theorem lastUpdated_final (session : Session) (log : List (Instant × Action)) :
    (session.final log).bucket.lastUpdated =
      (session.updates log).getLast?.getD session.bucket.lastUpdated := by
  induction log generalizing session with
  | nil => rfl
  | cons entry rest ih =>
      obtain ⟨now, action⟩ := entry
      rw [final_cons, ih, lastUpdated_step, updates]
      split
      · rw [List.getLast?_cons, Option.getD_some]
      · rfl

theorem mem_updates {log : List (Instant × Action)} {moment : Instant}
    (hmem : moment ∈ session.updates log) : moment ∈ log.map Prod.fst := by
  induction log generalizing session with
  | nil => cases hmem
  | cons entry rest ih =>
      obtain ⟨now, action⟩ := entry
      rw [updates] at hmem
      split at hmem
      · rcases List.mem_cons.mp hmem with rfl | hrest
        · exact List.mem_cons_self
        · exact List.mem_cons_of_mem now (ih hrest)
      · exact List.mem_cons_of_mem now (ih hmem)

/-- The moment of the last change is that before a run or a reading within it. -/
theorem lastUpdated_final_mem (session : Session) (log : List (Instant × Action)) :
    (session.final log).bucket.lastUpdated ∈
      session.bucket.lastUpdated :: log.map Prod.fst := by
  rw [lastUpdated_final]
  cases hlast : (session.updates log).getLast? with
  | none => exact List.mem_cons_self
  | some moment =>
      have hmem := mem_updates (List.mem_of_getLast? hlast)
      exact List.mem_cons_of_mem session.bucket.lastUpdated hmem

/-- If the clock never goes back, neither does the moment of the last change. -/
theorem lastUpdated_final_le {first rest : List (Instant × Action)}
    (hclock : (session.bucket.lastUpdated :: (first ++ rest).map Prod.fst).Pairwise
      (· ≤ ·)) :
    (session.final first).bucket.lastUpdated ≤
      (session.final (first ++ rest)).bucket.lastUpdated := by
  have hbefore := session.lastUpdated_final_mem first
  have hafter := (session.final first).lastUpdated_final_mem rest
  rw [List.map_append, ← List.cons_append, List.pairwise_append] at hclock
  rw [final_append]
  rcases List.mem_cons.mp hafter with heq | hrest
  · exact le_of_eq heq.symm
  · exact hclock.2.2 _ hbefore _ hrest

end Session

/-- Whatever is refused leaves all as it was, except that a refused pick has read
its source.  The moment of the last change is set in exactly the steps that admit,
remove or move a member, also the newest, and goes back only if the clock does. -/
theorem refusals_and_updates {session : Session} (reached : session.Reachable) :
    (∀ now action error, (session.step now action).answer = .refused error →
      (session.step now action).after = session ∨
        action = .pick ∧ (session.step now action).after =
          { session with
            bucket := { session.bucket with reads := session.bucket.reads + 1 } }) ∧
    (∀ now action, (session.step now action).after.bucket.lastUpdated =
      if action.mutates && (session.step now action).answer.accepts then now
      else session.bucket.lastUpdated) ∧
    (∀ now older newest, session.bucket.members = older ++ [newest] →
      let turn := session.step now (.touch newest.id)
      turn.answer = .done ∧ turn.after.bucket.members = session.bucket.members ∧
        turn.after.bucket.lastUpdated = now) ∧
    (∀ log, (session.final log).bucket.lastUpdated =
      (session.updates log).getLast?.getD session.bucket.lastUpdated) ∧
    (∀ first rest,
      (session.bucket.lastUpdated :: (first ++ rest).map Prod.fst).Pairwise
        (· ≤ ·) →
      (session.final first).bucket.lastUpdated ≤
        (session.final (first ++ rest)).bucket.lastUpdated) := by
  refine ⟨?_, session.lastUpdated_step, ?_, session.lastUpdated_final, ?_⟩
  · intro now action error hrefused
    exact Session.after_of_refused hrefused
  · intro now older newest hmembers turn
    obtain ⟨hfind, horder⟩ :=
      Bucket.find?_newest reached.bounded.distinct hmembers
    have hturn := Session.step_touch_of_find? hfind now
    rw [horder] at hturn
    show turn.answer = .done ∧ _
    rw [show turn = _ from hturn]
    exact ⟨rfl, rfl, rfl⟩
  · intro first rest hclock
    exact Session.lastUpdated_final_le hclock

/-- A bucket whose source fails, with two members.  A failed pick and a repeated
newcomer are refused, the newest member is touched, and of a longer run only the
touch of the oldest member counts. -/
theorem refusals_and_updates_trial :
    let newest : Handle := .sampleAt 1 2 2
    let session := (Session.mk (.start .small .failing 0) .sample).final
      [(1, .add (.sampleAt 0 1 1)), (2, .add newest)]
    let twin : Action := .add (.sampleAt 2 1 3)
    let log : List (Instant × Action) :=
      [(3, .pick), (4, twin), (5, .touch (.ofNat 1)), (6, .touch (.ofNat 9)),
        (7, .change 0 (.setAlive false)), (8, .closest newest.id 2)]
    session.Reachable ∧
      (session.step 3 .pick).answer =
        .refused (.noEntropy (.unavailable "entropy source disabled")) ∧
      (session.step 3 .pick).after =
        { session with bucket := { session.bucket with reads := 1 } } ∧
      (session.step 3 twin).answer = .refused (.duplicate (.ofNat 1)) ∧
      (session.step 3 twin).after = session ∧
      (session.step 3 (.touch newest.id)).after.bucket.members =
        session.bucket.members ∧
      (session.step 3 (.touch newest.id)).after.bucket.lastUpdated = 3 ∧
      (session.final log).bucket.lastUpdated = 5 ∧
      (session.bucket.lastUpdated :: log.map Prod.fst).Pairwise (· ≤ ·) ∧
      session.bucket.lastUpdated ≤ (session.final log).bucket.lastUpdated := by
  intro newest session twin log
  have reached : session.Reachable :=
    .of_usable (by decide) (by decide) .failing 0 .sample _
  obtain ⟨hrefused, _, hnewest, hrun, hclock⟩ := refusals_and_updates reached
  have hpick : (session.step 3 .pick).answer =
      .refused (.noEntropy (.unavailable "entropy source disabled")) := by decide
  have htwin : (session.step 3 twin).answer =
      .refused (.duplicate (.ofNat 1)) := by decide
  have hread : (session.step 3 .pick).after ≠ session := by
    intro heq
    have hreads := congrArg (fun after => after.bucket.reads) heq
    exact absurd hreads (by decide)
  have htouched := hnewest 3 [.sampleAt 0 1 1] newest (by decide)
  have hupdates : session.updates log = [5] := by decide
  have hsteady : (session.bucket.lastUpdated :: log.map Prod.fst).Pairwise
      (· ≤ ·) := by decide
  refine ⟨reached, hpick, ?_, htwin, ?_, htouched.2.1, htouched.2.2,
    ?_, hsteady, ?_⟩
  · exact ((hrefused 3 .pick _ hpick).resolve_left hread).2
  · exact (hrefused 3 twin _ htwin).resolve_right fun h => nomatch h.1
  · rw [hrun, hupdates]
    rfl
  · exact hclock [] log hsteady

end Kademlia

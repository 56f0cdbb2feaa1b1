/-
How many events of level debug a run reports.  An admission, a removal and a
rejection report one each.  A member made the newest is reported by its lookup
alone, which is of a lower level, so the events fall short of the changes by the
number of moves.
-/
import Mathlib
import Kademlia.Proofs.Journal
import Kademlia.Proofs.Updates

namespace Kademlia

/-- Asks a bucket to make a member the newest. -/
def Action.moves : Action → Bool
  | .touch _ => true
  | _ => false

/-- A member was made the newest. -/
def Entry.moves (entry : Entry) : Bool :=
  entry.action.moves && entry.answer.accepts

/-- A newcomer was stored already or found no room. -/
def Entry.rejects (entry : Entry) : Bool :=
  entry.answer.isRejection

theorem Entry.updates_of_moves {entry : Entry} (h : entry.moves = true) :
    entry.updates = true := by
  obtain ⟨action, answer⟩ := entry
  cases action with
  | touch id => exact h
  | _ => cases h

theorem Entry.updates_of_rejects {entry : Entry} (h : entry.rejects = true) :
    entry.updates = false := by
  obtain ⟨action, answer⟩ := entry
  cases answer with
  | refused error => exact Bool.and_false _
  | _ => cases h

def Event.isDebug (event : Event) : Bool :=
  event.level = .debug

theorem Event.countP_isDebug_of_trace {events : List Event}
    (h : ∀ event ∈ events, event.level = .trace) : events.countP isDebug = 0 := by
  rw [List.countP_eq_zero]
  intro event hmem
  simp [isDebug, h event hmem]

theorem Entry.ReportedBy.mutates {entry : Entry} {event : Event}
    (h : entry.ReportedBy event) : entry.action.mutates = true := by
  cases h with
  | duplicate handle => rfl
  | full handle capacity => rfl
  | crowded handle limit => rfl

/-! The balance of events and changes, for a step and for a run. -/

/-- The debug events of a turn make up for all it changed or rejected but a move. -/
def Turn.Balanced (turn : Turn) (action : Action) : Prop :=
  let entry : Entry := ⟨action, turn.answer⟩
  turn.events.countP Event.isDebug + entry.moves.toNat =
    entry.updates.toNat + entry.rejects.toNat

theorem Turn.Balanced.countP_eq {turn : Turn} {action : Action}
    (h : turn.Balanced action) :
    let entry : Entry := ⟨action, turn.answer⟩
    turn.events.countP Event.isDebug =
      if entry.updates && !entry.moves || entry.rejects then 1 else 0 := by
  intro entry
  change _ + entry.moves.toNat = entry.updates.toNat + entry.rejects.toNat at h
  cases hrejects : entry.rejects with
  | true =>
      have hupdates := Entry.updates_of_rejects hrejects
      have hmoves : entry.moves = false := by
        cases hmoved : entry.moves with
        | false => rfl
        | true => cases (Entry.updates_of_moves hmoved).symm.trans hupdates
      simpa [hrejects, hupdates, hmoves] using h
  | false =>
      cases hmoves : entry.moves with
      | true => simpa [hrejects, hmoves, Entry.updates_of_moves hmoves] using h
      | false =>
          cases hupdates : entry.updates with
          | true => simpa [hrejects, hmoves, hupdates] using h
          | false => simpa [hrejects, hmoves, hupdates] using h

/-- An action that asks for no change rejects nobody and reports lookups at most. -/
theorem Turn.Told.balanced_of_quiet {turn : Turn} {bucket : Bucket}
    {action : Action}
    (h : turn.Told bucket action) (hmutates : action.mutates = false)
    (hmoves : action.moves = false) : turn.Balanced action := by
  cases h with
  | admitted handle asked _ _ _ =>
      subst asked
      cases hmutates
  | turnedAway event reported _ _ => cases reported.mutates.symm.trans hmutates
  | removed handle member asked _ _ _ _ =>
      subst asked
      cases hmutates
  | moved id asked _ _ _ =>
      subst asked
      cases hmutates
  | kept answered _ events =>
      have hcount := Event.countP_isDebug_of_trace events
      rw [Turn.Balanced, hcount, Entry.moves, Entry.updates,
        Entry.rejects, answered.2, hmoves, hmutates]
      rfl

namespace Session

theorem balanced_add (session : Session) (now : Instant) (handle : Handle) :
    (session.step now (.add handle)).Balanced (.add handle) := by
  cases hadd : session.bucket.add handle now with
  | ok after =>
      rw [step_add_of_room (Bucket.add_eq_ok_iff.mp hadd).1]
      rfl
  | error error =>
      rw [step_add_of_error hadd]
      rcases Bucket.error_of_add hadd with rfl | rfl | rfl
      · rfl
      · rfl
      · rfl

theorem balanced_step (session : Session) (now : Instant) (action : Action) :
    (session.step now action).Balanced action := by
  cases action with
  | add handle => exact session.balanced_add now handle
  | remove handle =>
      cases hfind : session.bucket.find? handle.id with
      | none =>
          rw [step_remove_of_absent hfind]
          rfl
      | some member =>
          rw [step_remove_of_find? hfind]
          rfl
  | touch id =>
      cases hfind : session.bucket.find? id with
      | none =>
          rw [step_touch_of_absent hfind]
          rfl
      | some member =>
          rw [step_touch_of_find? hfind]
          rfl
  | _ => exact (session.told_step now _).balanced_of_quiet rfl rfl

theorem countP_history_cons (asked : Entry → Bool) (session : Session)
    (now : Instant) (action : Action) (rest : List (Instant × Action)) :
    (session.history ((now, action) :: rest)).countP asked =
      (asked ⟨action, (session.step now action).answer⟩).toNat +
        ((session.step now action).after.history rest).countP asked := by
  rw [history_cons, List.countP_append, List.countP_singleton]
  cases asked ⟨action, (session.step now action).answer⟩ with
  | false => rfl
  | true => rfl

theorem balanced_run (session : Session) (log : List (Instant × Action)) :
    (session.journal log).countP Event.isDebug +
        (session.history log).countP Entry.moves =
      (session.history log).countP Entry.updates +
        (session.history log).countP Entry.rejects := by
  induction log generalizing session with
  | nil => rfl
  | cons entry rest ih =>
      obtain ⟨now, action⟩ := entry
      have hstep := session.balanced_step now action
      have hrest := ih (session.step now action).after
      rw [journal_cons, List.countP_append, countP_history_cons,
        countP_history_cons, countP_history_cons]
      rw [Turn.Balanced] at hstep
      omega

end Session

/-- In every run, a step that admitted or removed a member or rejected a newcomer
reports one event of level debug, and every other step none, also one that made a
member the newest.  So the debug events of a run are fewer than its changes and
rejections by the number of moves, and as many only if nobody was moved. -/
theorem debug_events_miss_moves (session : Session)
    (log : List (Instant × Action)) :
    (∀ now action,
      let turn := session.step now action
      let entry : Entry := ⟨action, turn.answer⟩
      turn.events.countP Event.isDebug =
        if entry.updates && !entry.moves || entry.rejects then 1 else 0) ∧
    let debugs := (session.journal log).countP Event.isDebug
    let updates := (session.history log).countP Entry.updates
    let moves := (session.history log).countP Entry.moves
    let rejections := (session.history log).countP Entry.rejects
    debugs + moves = updates + rejections ∧
      (debugs = updates + rejections ↔ moves = 0) := by
  constructor
  · intro now action turn entry
    exact (session.balanced_step now action).countP_eq
  · intro debugs updates moves rejections
    have hrun : debugs + moves = updates + rejections := session.balanced_run log
    refine ⟨hrun, ?_⟩
    omega

/-- A member is admitted and made the newest.  Both are changes, and only the first
is reported at level debug. -/
theorem touch_not_reported_at_debug :
    let session := Session.mk (.start .standard (.fixed 7) 0) .sample
    let handle : Handle := .sampleAt 0 1 1
    let log : List (Instant × Action) := [(1, .add handle), (2, .touch handle.id)]
    (session.history log).map Entry.answer = [.done, .done] ∧
      (session.history log).countP Entry.updates = 2 ∧
      (session.history log).countP Entry.rejects = 0 ∧
      (session.run log).map (fun turn => turn.events.countP Event.isDebug) =
        [1, 0] ∧
      (session.journal log).countP Event.isDebug = 1 := by
  decide

end Kademlia

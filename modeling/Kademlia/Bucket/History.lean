/-
What a run of actions leaves behind: each action beside its answer.  Only three
kinds of entries mark the members of a bucket, and from the marks alone it can
be told who is a member and when each member was last admitted or moved.
-/
import Kademlia.Bucket.Session

namespace Kademlia

/-- One action of a run and how it was answered. -/
structure Entry where
  action : Action
  answer : Answer

/-- A change to the members of a bucket. -/
inductive Mark where
  | admitted (handle : Handle)
  | removed (id : NodeId)
  | moved (id : NodeId)
deriving DecidableEq

namespace Mark

/-- The identifier whose member a mark makes the newest. -/
def refreshed? : Mark → Option NodeId
  | admitted handle => some handle.id
  | moved id => some id
  | removed _ => none

/-- After such a mark, an earlier admission under the identifier no longer
counts. -/
def Settles (id : NodeId) : Mark → Prop
  | admitted handle => handle.id = id
  | removed gone => gone = id
  | moved _ => False

end Mark

namespace Entry

/-- Only a peer let in, a peer given back and a member touched leave marks. -/
def mark? : Entry → Option Mark
  | ⟨.add handle, .done⟩ => some (.admitted handle)
  | ⟨.remove handle, .peer _⟩ => some (.removed handle.id)
  | ⟨.touch id, .done⟩ => some (.moved id)
  | _ => none

/-- The peer that an entry let in. -/
def admitted? (entry : Entry) : Option Handle :=
  match entry.mark? with
  | some (.admitted handle) => some handle
  | _ => none

end Entry

/-- The entries of a list of actions, each with its reading of the clock. -/
def Session.history (session : Session) :
    List (Instant × Action) → List Entry
  | [] => []
  | (now, action) :: rest =>
      let turn := session.step now action
      ⟨action, turn.answer⟩ :: turn.after.history rest

namespace History

/-- The mark that the entry at an index left. -/
def markAt? (history : List Entry) (i : Nat) : Option Mark :=
  history[i]?.bind Entry.mark?

/-- The mark at an index has one property, and no later mark has the other. -/
def LastAt (history : List Entry) (here later : Mark → Prop) (i : Nat) : Prop :=
  (∃ mark, markAt? history i = some mark ∧ here mark) ∧
    ∀ j mark, i < j → markAt? history j = some mark → ¬ later mark

/-- The last admission under the identifier was of this very handle, and no
removal under it came later. -/
def Standing (history : List Entry) (handle : Handle) : Prop :=
  ∃ i, LastAt history (· = .admitted handle) (Mark.Settles handle.id) i

/-- The index at which the identifier was last admitted or moved. -/
def RefreshedAt (history : List Entry) (id : NodeId) (i : Nat) : Prop :=
  LastAt history (·.refreshed? = some id) (·.refreshed? = some id) i

/-- One handle was last admitted or moved before another one was. -/
def Older (history : List Entry) (first second : Handle) : Prop :=
  ∃ i j, RefreshedAt history first.id i ∧ RefreshedAt history second.id j ∧ i < j

end History

end Kademlia

/-
Shared peers.  A handle names a peer by its slot and carries its contact; the
roster holds the liveness of every slot, so a change is seen through every
handle of that slot.  Handles of different slots are different peers even when
their identifiers agree.
-/
import Kademlia.Peer.Basic

namespace Kademlia

structure Handle where
  slot : Nat
  contact : Contact
deriving DecidableEq

namespace Handle

abbrev id (handle : Handle) : NodeId :=
  handle.contact.id

abbrev ip (handle : Handle) : Ip :=
  handle.contact.ip

/-- A handle for trials: any slot, identifier and host of one network. -/
def sampleAt (slot : Nat) (id host : UInt8) : Handle where
  slot := slot
  contact := (Peer.sampleAt id (.v4 ⟨[10, 0, 0, host], rfl⟩) 4672).contact

end Handle

/-- The liveness of every slot. -/
abbrev Roster := Nat → Liveness

namespace Roster

/-- All peers verified and alive, for trials. -/
def sample : Roster := fun _ => .unseen 0 true true

/-- Change the liveness of one slot. -/
def update (roster : Roster) (slot : Nat) (change : Change) : Roster :=
  let changed := (roster slot).apply change
  fun other => if other = slot then changed else roster other

@[simp] theorem update_same (roster : Roster) (slot : Nat) (change : Change) :
    roster.update slot change slot = (roster slot).apply change := by
  simp [update]

theorem update_other (roster : Roster) {slot other : Nat} (change : Change)
    (h : other ≠ slot) : roster.update slot change other = roster other := by
  simp [update, h]

end Roster

end Kademlia

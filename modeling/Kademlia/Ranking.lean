/-
Peers ranked by their distance to a target, the closest first.  The ranking is
stable, and only verified live peers are handed out.
-/
import Kademlia.Distance
import Kademlia.Peer.Roster

namespace Kademlia

/-- The order of two peers seen from a target: by distance, then by
identifier. -/
def compareFrom (target : NodeId) (a b : Handle) : Ordering :=
  (compare (a.id.distance target) (b.id.distance target)).then
    (compare a.id b.id)

/-- Insert a peer before the first one that is not closer to the target. -/
def rankInsert (target : NodeId) (handle : Handle) : List Handle → List Handle
  | [] => [handle]
  | first :: rest =>
      if (compareFrom target handle first).isLE then handle :: first :: rest
      else first :: rankInsert target handle rest

/-- Peers by distance to a target, those of equal rank in the given order. -/
def rankByDistance (target : NodeId) (handles : List Handle) : List Handle :=
  handles.foldr (rankInsert target) []

/-- The peers that may be handed out. -/
def candidates (roster : Roster) (handles : List Handle) : List Handle :=
  handles.filter fun handle => (roster handle.slot).isCandidate

/-- The `max` candidates closest to a target, the closest first. -/
def closestCandidates (roster : Roster) (target : NodeId) (max : Nat)
    (handles : List Handle) : List Handle :=
  (rankByDistance target (candidates roster handles)).take max

end Kademlia

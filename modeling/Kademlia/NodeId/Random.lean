/-
Identifiers drawn from a source of entropy.
-/
import Kademlia.Entropy
import Kademlia.NodeId.Basic

namespace Kademlia

/-- The identifier whose bytes are one read of a source. -/
def NodeId.random (entropy : EntropySource) (index : Nat) :
    Except EntropyError NodeId :=
  NodeId.mk <$> entropy.read index NodeId.length

end Kademlia

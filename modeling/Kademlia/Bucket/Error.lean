/-
Why an operation on a bucket is refused.  A refused operation changes nothing.
-/
import Kademlia.Address.Net
import Kademlia.Entropy
import Kademlia.NodeId.Hex

namespace Kademlia

inductive BucketError where
  | duplicate (id : NodeId)
  | full (capacity : Nat)
  | tooManyFrom (ip : Ip) (limit : Nat)
  | notFound
  | unsupportedAddress (kind : String)
  | empty
  | noEntropy (cause : EntropyError)
deriving DecidableEq

def BucketError.message : BucketError → String
  | .duplicate id => s!"K-bucket already contains peer {id.toHex}"
  | .full capacity => s!"K-bucket is full ({capacity} peers)"
  | .tooManyFrom ip limit => s!"Too many peers from {ip.text} (limit {limit})"
  | .notFound => "Peer not found in k-bucket"
  | .unsupportedAddress kind => s!"Unsupported address kind: {kind}"
  | .empty => "K-bucket is empty"
  | .noEntropy cause => s!"Random source failure: {cause.message}"

end Kademlia

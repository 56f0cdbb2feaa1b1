/-
What can go wrong between a configuration and a bucket.
-/
import Kademlia.Limits

namespace Kademlia

inductive ConfigError where
  | unreadable (path cause : String)
  /-- The text is not valid, or a limit in it is not a natural number. -/
  | malformed
  | outOfRange (cause : LimitsError)
deriving DecidableEq

def ConfigError.message : ConfigError → String
  | .unreadable path cause => s!"Failed to read {path}: {cause}"
  | .malformed => "Failed to parse config: "
  | .outOfRange cause => s!"Invalid k-bucket config: {cause.message}"

/-- Why no bucket is made. -/
inductive BuildError where
  | refused (error : ConfigError)
  /-- Room is asked for that no allocation can have.  This is not an answer: the
  program stops. -/
  | capacityOverflow
deriving DecidableEq

end Kademlia

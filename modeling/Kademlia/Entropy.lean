/-
Sources of random bytes, read one after another.  A source is described by what
its reads give, so that a run of reads is determined by the source alone.
-/
import Kademlia.Octets

namespace Kademlia

inductive EntropyError where
  | unavailable (reason : String)
deriving DecidableEq

def EntropyError.message : EntropyError → String
  | .unavailable reason => s!"entropy unavailable: {reason}"

/-- What each read of a source gives when it is asked for `length` bytes.  Reads
are counted from zero, failed ones included. -/
structure EntropySource where
  read : (index length : Nat) → Except EntropyError (Octets length)

namespace EntropySource

/-- The big-endian bytes of a word, repeated as often as needed. -/
def cycled (word : UInt64) (length : Nat) : Octets length :=
  let bytes := toBigEndian 8 word.toNat
  ⟨(List.range length).map fun i => bytes.getD (i % 8) 0, by simp⟩

/-- Every read repeats the same word. -/
def fixed (word : UInt64) : EntropySource where
  read _ length := .ok (cycled word length)

/-- No read succeeds. -/
def failing : EntropySource where
  read _ _ := .error (.unavailable "entropy source disabled")

/-- What one read of a scripted source does. -/
inductive Cue where
  | draw (word : UInt64)
  | fail (reason : String)
deriving DecidableEq

/-- Each read follows the next cue, and the last cue is followed for ever. -/
def scripted (cues : List Cue) : EntropySource where
  read index length :=
    match cues[min index (cues.length - 1)]? with
    | some (.draw word) => .ok (cycled word length)
    | some (.fail reason) => .error (.unavailable reason)
    | none => failing.read index length

end EntropySource

end Kademlia

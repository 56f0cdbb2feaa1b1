/-
The written form of an identifier: thirty-two hexadecimal digits, lower-case
when written and of either case when read.
-/
import Kademlia.Hex
import Kademlia.NodeId.Basic

namespace Kademlia

/-- Why a text is not an identifier. -/
inductive NodeIdError where
  | invalidLength (expected actual : Nat)
  | invalidDigit
deriving DecidableEq

def NodeIdError.message : NodeIdError → String
  | .invalidLength expected actual =>
      s!"node id must be {expected} hex characters, got {actual}"
  | .invalidDigit => "invalid hex digit in node id"

namespace NodeId

/-- How many digits an identifier is written with. -/
abbrev digits : Nat := 2 * NodeId.length

def toHex (id : NodeId) : String :=
  Hex.ofBytes id.bytes.toList

/-- Read an identifier.  The length is counted in bytes of UTF-8 and is checked
before the digits are, and the digits before the number is read, so that a sign is
refused. -/
def ofHex (text : String) : Except NodeIdError NodeId :=
  if text.utf8ByteSize ≠ digits then
    .error (.invalidLength digits text.utf8ByteSize)
  else if ¬ text.toUTF8.data.toList.all Hex.isDigit then .error .invalidDigit
  else
    match Hex.numeral? (1 <<< 128) text.toList with
    | some value => .ok (ofNat value)
    | none => .error .invalidDigit

/-- The bytes of an identifier in decimal, for inspection. -/
def dump (id : NodeId) : String :=
  let bytes := id.bytes.toList.map fun byte => toString byte.toNat
  "NodeId([" ++ ", ".intercalate bytes ++ "])"

end NodeId

end Kademlia

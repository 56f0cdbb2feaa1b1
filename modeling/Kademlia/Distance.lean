/-
The XOR distance between two identifiers, an unsigned 128-bit number.  Smaller
is closer, and the leading zeros of a distance count the bits that the two
identifiers share at the front.
-/
import Kademlia.NodeId.Basic

namespace Kademlia

structure Distance where
  value : BitVec 128
deriving DecidableEq

namespace Distance

def toNat (distance : Distance) : Nat :=
  distance.value.toNat

/-- The distance from an identifier to itself. -/
def zero : Distance :=
  ⟨0⟩

instance : Ord Distance where
  compare d e := compare d.toNat e.toNat

/-- The number of zero bits above the highest one bit. -/
def leadingZeros (distance : Distance) : Nat :=
  if distance.toNat = 0 then 128 else 127 - distance.toNat.log2

end Distance

def NodeId.toBitVec (id : NodeId) : BitVec 128 :=
  BitVec.ofNat 128 id.toNat

/-- The bits in which two identifiers differ, read as a number. -/
def NodeId.distance (a b : NodeId) : Distance :=
  ⟨a.toBitVec ^^^ b.toBitVec⟩

end Kademlia

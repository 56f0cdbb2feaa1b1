/-
The numbers that byte strings, identifiers and distances stand for.  Writing a
number and reading it back keeps its last digits, so identifiers and the
numbers below `2 ^ 128` correspond to each other, and the distance of two
identifiers is the exclusive or of their numbers.
-/
import Mathlib
import Kademlia.Distance

namespace Kademlia

theorem ofBigEndian_toBigEndian (length value : Nat) :
    ofBigEndian (toBigEndian length value) = value % 256 ^ length := by
  induction length generalizing value with
  | zero => simp [toBigEndian, ofBigEndian, Nat.mod_one]
  | succ length ih =>
      rw [toBigEndian, ofBigEndian_concat, ih, Nat.pow_succ', Nat.mod_mul]
      simp [UInt8.toNat_ofNat']
      omega

namespace Octets

variable {length : Nat}

theorem toNat_ofNat (value : Nat) :
    (ofNat value : Octets length).toNat = value % 256 ^ length :=
  ofBigEndian_toBigEndian length value

theorem toNat_lt (bytes : Octets length) : bytes.toNat < 256 ^ length := by
  rw [← ofNat_toNat bytes, toNat_ofNat]
  exact Nat.mod_lt _ (Nat.pow_pos (by decide))

end Octets

namespace NodeId

theorem toNat_lt (id : NodeId) : id.toNat < 2 ^ 128 :=
  id.bytes.toNat_lt

theorem toNat_ofNat (value : Nat) : (ofNat value).toNat = value % 2 ^ 128 :=
  Octets.toNat_ofNat value

theorem toNat_distance (a b : NodeId) :
    (a.distance b).toNat = a.toNat ^^^ b.toNat := by
  rw [distance, Distance.toNat, BitVec.toNat_xor, toBitVec, toBitVec,
    BitVec.toNat_ofNat, BitVec.toNat_ofNat,
    Nat.mod_eq_of_lt a.toNat_lt, Nat.mod_eq_of_lt b.toNat_lt]

/-- No two identifiers are equally far from a target. -/
theorem toNat_distance_left_inj {a b target : NodeId} :
    (a.distance target).toNat = (b.distance target).toNat ↔ a = b := by
  rw [toNat_distance, toNat_distance, Nat.xor_left_inj, toNat_inj]

end NodeId

end Kademlia

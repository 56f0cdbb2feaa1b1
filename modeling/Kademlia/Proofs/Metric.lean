/-
The distance of identifiers as a metric.  It vanishes only between equal
identifiers, it is symmetric, and a detour is never shorter; at every distance from
an identifier there is exactly one other.  Its bytes are those of the two
identifiers, combined one by one.
-/
import Mathlib
import Kademlia.NodeId.Value

namespace Kademlia

/-- An exclusive or is a sum without the carries. -/
theorem xor_le_add (x y : Nat) : x ^^^ y ≤ x + y := by
  induction x using Nat.strong_induction_on generalizing y with
  | h x ih =>
      rcases Nat.eq_zero_or_pos x with rfl | hpos
      · simp
      · have hhalf := ih (x / 2) (by omega) (y / 2)
        have hquot : (x ^^^ y) / 2 = x / 2 ^^^ y / 2 := Nat.xor_div_two
        have hlast : (x ^^^ y) % 2 = (x + y) % 2 := Nat.xor_mod_two_eq
        omega

/-- An exclusive or works digit by digit in base 256, as it does in base 2. -/
theorem xor_mul_add {x y : Nat} (v w : Nat) (hx : x < 256) (hy : y < 256) :
    (256 * v + x) ^^^ (256 * w + y) = 256 * (v ^^^ w) + (x ^^^ y) := by
  have hquot : ((256 * v + x) ^^^ (256 * w + y)) / 2 ^ 8 = v ^^^ w := by
    have hv : (256 * v + x) / 2 ^ 8 = v := by omega
    have hw : (256 * w + y) / 2 ^ 8 = w := by omega
    rw [Nat.xor_div_two_pow, hv, hw]
  have hlast : ((256 * v + x) ^^^ (256 * w + y)) % 2 ^ 8 = x ^^^ y := by
    have hv : (256 * v + x) % 2 ^ 8 = x := by omega
    have hw : (256 * w + y) % 2 ^ 8 = y := by omega
    rw [Nat.xor_mod_two_pow, hv, hw]
  omega

theorem ofBigEndian_zipWith_xor {first second : List UInt8}
    (hlength : first.length = second.length) :
    ofBigEndian (List.zipWith (· ^^^ ·) first second) =
      ofBigEndian first ^^^ ofBigEndian second := by
  induction first using List.reverseRecOn generalizing second with
  | nil =>
      obtain rfl := List.eq_nil_of_length_eq_zero hlength.symm
      rfl
  | append_singleton first x ih =>
      rcases second.eq_nil_or_concat' with rfl | ⟨second, y, rfl⟩
      · simp at hlength
      · have hrest : first.length = second.length := by simpa using hlength
        rw [List.zipWith_append hrest, List.zipWith_cons_cons,
          List.zipWith_nil_left, ofBigEndian_concat, ofBigEndian_concat,
          ofBigEndian_concat, ih hrest, UInt8.toNat_xor,
          xor_mul_add _ _ x.toNat_lt y.toNat_lt]

namespace Distance

theorem toNat_inj {d e : Distance} : d.toNat = e.toNat ↔ d = e := by
  constructor
  · intro h
    have hvalue : d.value = e.value := BitVec.eq_of_toNat_eq h
    cases d
    cases e
    simpa using hvalue
  · exact fun h => by rw [h]

theorem toNat_lt (d : Distance) : d.toNat < 2 ^ 128 :=
  d.value.isLt

end Distance

namespace NodeId

theorem distance_comm (a b : NodeId) : a.distance b = b.distance a := by
  rw [← Distance.toNat_inj, toNat_distance, toNat_distance, Nat.xor_comm]

theorem distance_eq_zero_iff {a b : NodeId} : a.distance b = .zero ↔ a = b := by
  have hzero : Distance.zero.toNat = 0 := rfl
  rw [← Distance.toNat_inj, hzero, toNat_distance, Nat.xor_eq_zero_iff, toNat_inj]

/-- On the way over a third identifier, what it differs in from both cancels. -/
theorem toNat_distance_via (a b c : NodeId) :
    (a.distance c).toNat = (a.distance b).toNat ^^^ (b.distance c).toNat := by
  rw [toNat_distance, toNat_distance, toNat_distance, Nat.xor_assoc,
    Nat.xor_xor_cancel_left]

theorem toNat_distance_le_add (a b c : NodeId) :
    (a.distance c).toNat ≤ (a.distance b).toNat + (b.distance c).toNat := by
  rw [toNat_distance_via a b c]
  exact xor_le_add _ _

theorem distance_ofNat_xor (a : NodeId) (d : Distance) :
    a.distance (ofNat (a.toNat ^^^ d.toNat)) = d := by
  have hbound : a.toNat ^^^ d.toNat < 2 ^ 128 :=
    Nat.xor_lt_two_pow a.toNat_lt d.toNat_lt
  rw [← Distance.toNat_inj, toNat_distance, toNat_ofNat, Nat.mod_eq_of_lt hbound,
    Nat.xor_xor_cancel_left]

theorem existsUnique_distance_eq (a : NodeId) (d : Distance) :
    ∃! b, a.distance b = d := by
  refine ⟨ofNat (a.toNat ^^^ d.toNat), distance_ofNat_xor a d, ?_⟩
  rintro b rfl
  rw [toNat_distance, Nat.xor_xor_cancel_left, ofNat_toNat]

theorem toBigEndian_distance (a b : NodeId) :
    toBigEndian NodeId.length (a.distance b).toNat =
      List.zipWith (· ^^^ ·) a.bytes.toList b.bytes.toList := by
  have hlength := length_bytes_eq a b
  have hbytes : (List.zipWith (· ^^^ ·) a.bytes.toList b.bytes.toList).length =
      NodeId.length := by
    rw [List.length_zipWith, ← hlength, Nat.min_self, a.bytes.length_toList]
  have hnumber : (a.distance b).toNat =
      ofBigEndian (List.zipWith (· ^^^ ·) a.bytes.toList b.bytes.toList) := by
    rw [toNat_distance, ofBigEndian_zipWith_xor hlength]
    rfl
  have hwritten := toBigEndian_ofBigEndian
    (List.zipWith (· ^^^ ·) a.bytes.toList b.bytes.toList)
  rw [hbytes] at hwritten
  rw [hnumber, hwritten]

end NodeId

/-- Distances are zero exactly between equal identifiers, the same both ways, and
together at least the distance that they span.  From an identifier each of the
128-bit distances leads to exactly one other, and the bytes of a distance are the
exclusive ors of the bytes of the two identifiers. -/
theorem distance_is_unidirectional_metric :
    (∀ a b : NodeId, a.distance b = .zero ↔ a = b) ∧
    (∀ a b : NodeId, a.distance b = b.distance a) ∧
    (∀ a b c : NodeId,
      (a.distance c).toNat ≤ (a.distance b).toNat + (b.distance c).toNat) ∧
    (∀ (a : NodeId) (d : Distance), ∃! b, a.distance b = d) ∧
    (∀ a b : NodeId, toBigEndian NodeId.length (a.distance b).toNat =
      List.zipWith (· ^^^ ·) a.bytes.toList b.bytes.toList) :=
  ⟨fun _ _ => NodeId.distance_eq_zero_iff, NodeId.distance_comm,
    NodeId.toNat_distance_le_add, NodeId.existsUnique_distance_eq,
    NodeId.toBigEndian_distance⟩

end Kademlia

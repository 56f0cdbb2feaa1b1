/-
The order of identifiers.  Bytes are compared from the most significant one on,
which is how numbers compare, and so do the texts that identifiers are written as,
because digits stand in the order of their values and all texts are of one length.
-/
import Mathlib
import Kademlia.NodeId.Value
import Kademlia.Proofs.HexText

namespace Kademlia

/-- Of two numbers the upper digits decide, and only if they agree the lowest one
does. -/
theorem compare_mul_add {base x y : Nat} (v w : Nat) (hx : x < base)
    (hy : y < base) :
    compare (base * v + x) (base * w + y) = (compare v w).then (compare x y) := by
  rcases Nat.lt_trichotomy v w with hlt | rfl | hgt
  · have hupper : base * (v + 1) ≤ base * w := Nat.mul_le_mul_left base hlt
    have hless : base * v + x < base * w + y := by
      rw [Nat.mul_succ] at hupper
      omega
    rw [Nat.compare_eq_lt.mpr hlt, Nat.compare_eq_lt.mpr hless, Ordering.lt_then]
  · rw [Nat.compare_eq_eq.mpr rfl, Ordering.eq_then, Nat.compare_eq_ite_lt,
      Nat.compare_eq_ite_lt]
    simp only [Nat.add_lt_add_iff_left]
  · have hupper : base * (w + 1) ≤ base * v := Nat.mul_le_mul_left base hgt
    have hgreater : base * w + y < base * v + x := by
      rw [Nat.mul_succ] at hupper
      omega
    rw [Nat.compare_eq_gt.mpr hgt, Nat.compare_eq_gt.mpr hgreater, Ordering.gt_then]

theorem ofBigEndian_lt (bytes : List UInt8) :
    ofBigEndian bytes < 256 ^ bytes.length :=
  Octets.toNat_lt ⟨bytes, rfl⟩

theorem ofBigEndian_cons (byte : UInt8) (bytes : List UInt8) :
    ofBigEndian (byte :: bytes) =
      256 ^ bytes.length * byte.toNat + ofBigEndian bytes := by
  induction bytes using List.reverseRecOn with
  | nil => simp [ofBigEndian]
  | append_singleton bytes last ih =>
      rw [← List.cons_append, ofBigEndian_concat, ofBigEndian_concat, ih,
        List.length_append, List.length_singleton, Nat.pow_succ]
      ring

/-- Byte strings of one length stand in the order of their values. -/
theorem compare_ofBigEndian {first second : List UInt8}
    (hlength : first.length = second.length) :
    compare (ofBigEndian first) (ofBigEndian second) = compare first second := by
  induction first generalizing second with
  | nil =>
      obtain rfl := List.eq_nil_of_length_eq_zero hlength.symm
      rfl
  | cons x first ih =>
      cases second with
      | nil => simp at hlength
      | cons y second =>
          have hrest : first.length = second.length := Nat.succ.inj hlength
          have hfirst := ofBigEndian_lt first
          rw [hrest] at hfirst
          rw [ofBigEndian_cons, ofBigEndian_cons, hrest,
            compare_mul_add x.toNat y.toNat hfirst (ofBigEndian_lt second),
            ih hrest, List.compare_cons_cons, UInt8.compare_eq_toNat_compare_toNat]

theorem compare_chars (first second : List Char) :
    compare first second =
      if first < second then .lt else if first = second then .eq else .gt := by
  induction first generalizing second with
  | nil =>
      cases second with
      | nil => rfl
      | cons d second => simp
  | cons c first ih =>
      cases second with
      | nil => simp
      | cons d second =>
          have hhead :
              compare c d = if c < d then .lt else if c = d then .eq else .gt := rfl
          rw [List.compare_cons_cons, ih, hhead]
          by_cases hlt : c < d
          · simp [hlt, List.cons_lt_cons_iff]
          · by_cases heq : c = d
            · simp [heq]
            · simp [hlt, heq, List.cons_lt_cons_iff]

/-- Texts stand in the order of the lists of their characters. -/
theorem compare_toList (first second : String) :
    compare first.toList second.toList = compare first second := by
  have hcompare : compare first second =
      if first < second then .lt else if first = second then .eq else .gt := rfl
  rw [compare_chars, hcompare]
  simp only [String.lt_iff_toList_lt, String.toList_inj]

namespace Hex

/-- Digits stand in the order of their values. -/
theorem compare_digitChar {i j : Nat} (hi : i < 16) (hj : j < 16) :
    compare (Nat.digitChar i) (Nat.digitChar j) = compare i j := by
  have hall : ∀ i j : Fin 16,
      compare (Nat.digitChar i) (Nat.digitChar j) = compare i.val j.val := by decide
  exact hall ⟨i, hi⟩ ⟨j, hj⟩

theorem compare_flatMap_pair {first second : List UInt8}
    (hlength : first.length = second.length) :
    compare (first.flatMap pair) (second.flatMap pair) = compare first second := by
  induction first generalizing second with
  | nil =>
      obtain rfl := List.eq_nil_of_length_eq_zero hlength.symm
      rfl
  | cons x first ih =>
      cases second with
      | nil => simp at hlength
      | cons y second =>
          have hx := x.toNat_lt
          have hy := y.toNat_lt
          have hdigits := compare_mul_add (x.toNat / 16) (y.toNat / 16)
            (Nat.mod_lt x.toNat (by decide : 0 < 16))
            (Nat.mod_lt y.toNat (by decide))
          rw [Nat.div_add_mod, Nat.div_add_mod] at hdigits
          rw [List.flatMap_cons, List.flatMap_cons, pair, pair, List.cons_append,
            List.cons_append, List.cons_append, List.cons_append,
            List.compare_cons_cons, List.compare_cons_cons, List.nil_append,
            List.nil_append, ih (Nat.succ.inj hlength),
            compare_digitChar (by omega) (by omega),
            compare_digitChar (by omega) (by omega), ← Ordering.then_assoc,
            ← hdigits, List.compare_cons_cons, UInt8.compare_eq_toNat_compare_toNat]

end Hex

namespace NodeId

variable {a b : NodeId}

theorem compare_eq_compare_bytes (a b : NodeId) :
    compare a b = compare a.bytes.toList b.bytes.toList := rfl

theorem compare_toNat (a b : NodeId) : compare a.toNat b.toNat = compare a b :=
  compare_ofBigEndian (length_bytes_eq a b)

theorem compare_toHex (a b : NodeId) : compare a.toHex b.toHex = compare a b := by
  rw [← compare_toList, toList_toHex, toList_toHex,
    Hex.compare_flatMap_pair (length_bytes_eq a b), compare_eq_compare_bytes]

theorem compare_eq_eq_iff : compare a b = .eq ↔ a = b := by
  rw [← compare_toNat, Nat.compare_eq_eq, toNat_inj]

theorem bytes_inj : a.bytes.toList = b.bytes.toList ↔ a = b :=
  ⟨fun h => ext (Octets.ext h), fun h => by rw [h]⟩

theorem toNat_ofNat_of_lt {value : Nat} (h : value < 2 ^ 128) :
    (ofNat value).toNat = value := by
  rw [toNat_ofNat, Nat.mod_eq_of_lt h]

end NodeId

/-- Identifiers are equal exactly if no bit is gathered from the differences of
their bytes.  They stand in the order of their bytes, of their numbers and of their
texts, and correspond to the numbers below `2 ^ 128`. -/
theorem identifiers_compare_as_numbers_and_texts (a b : NodeId) :
    (a.mismatch b = 0 ↔ a.bytes.toList = b.bytes.toList) ∧
    (a.mismatch b = 0 ↔ a.toNat = b.toNat) ∧
    (a.mismatch b = 0 ↔ compare a b = .eq) ∧
    compare a b = compare a.bytes.toList b.bytes.toList ∧
    compare a b = compare a.toNat b.toNat ∧
    compare a b = compare a.toHex b.toHex ∧
    NodeId.ofNat a.toNat = a ∧
    (∀ value < 2 ^ 128, (NodeId.ofNat value).toNat = value) ∧
    (a.mismatch b = 0 → ∀ digest : List UInt8 → UInt64,
      digest a.bytes.toList = digest b.bytes.toList) := by
  refine ⟨?_, ?_, ?_, rfl, (a.compare_toNat b).symm, (a.compare_toHex b).symm,
    a.ofNat_toNat, fun _ => NodeId.toNat_ofNat_of_lt, ?_⟩
  · rw [NodeId.mismatch_eq_zero_iff, NodeId.bytes_inj]
  · rw [NodeId.mismatch_eq_zero_iff, NodeId.toNat_inj]
  · rw [NodeId.mismatch_eq_zero_iff, NodeId.compare_eq_eq_iff]
  · intro hsame digest
    rw [NodeId.mismatch_eq_zero_iff.mp hsame]

/-- Two identifiers of neighbouring numbers that differ in two bytes, and the first
of them put together from its bytes. -/
theorem identifiers_compare_as_numbers_and_texts_trial :
    let low : NodeId := .ofNat 0x00ff
    let high : NodeId := .ofNat 0x0100
    let twin : NodeId := ⟨⟨List.replicate 15 0 ++ [0xff], rfl⟩⟩
    compare low high = .lt ∧ compare low.toHex high.toHex = .lt ∧
      low.mismatch high ≠ 0 ∧ low.mismatch twin = 0 ∧ compare low twin = .eq ∧
      (∀ digest : List UInt8 → UInt64,
        digest low.bytes.toList = digest twin.bytes.toList) ∧
      (NodeId.ofNat (2 ^ 128 - 1)).toNat = 2 ^ 128 - 1 := by
  intro low high twin
  obtain ⟨_, hnumbers, _, _, hnumeric, htexts, _, hinverse, _⟩ :=
    identifiers_compare_as_numbers_and_texts low high
  obtain ⟨hbytes, _, hequal, _, _, _, _, _, hdigest⟩ :=
    identifiers_compare_as_numbers_and_texts low twin
  have hless : compare low high = .lt := hnumeric.trans (by decide)
  have hsame : low.mismatch twin = 0 := hbytes.mpr (by decide)
  refine ⟨hless, htexts.symm.trans hless, ?_, hsame, hequal.mp hsame,
    hdigest hsame, ?_⟩
  · exact fun hnone => absurd (hnumbers.mp hnone) (by decide)
  · exact hinverse (2 ^ 128 - 1) (by decide)

end Kademlia

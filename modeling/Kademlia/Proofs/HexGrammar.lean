/-
Which texts are identifiers, told by their bytes.  A text of the right length is
refused only for a byte that is no digit, and else it is the number that its digits
write in base 16, each byte of the identifier being a pair of them.
-/
import Mathlib
import Kademlia.NodeId.Value
import Kademlia.Proofs.HexText

namespace Kademlia

namespace Hex

variable {digits : List Char} {value : Nat}

/-- The number that is read has the values of the characters for its digits in base
16. -/
theorem exists_values (h : number? digits = some value) :
    ∃ values : List Nat, digits.map value? = values.map some ∧
      values.length = digits.length ∧ (∀ value ∈ values, value < 16) ∧
      value = Nat.ofDigits 16 values.reverse := by
  induction digits using List.reverseRecOn generalizing value with
  | nil =>
      obtain rfl : 0 = value := by simpa [number?] using h
      exact ⟨[], rfl, rfl, List.forall_mem_nil _, rfl⟩
  | append_singleton digits c ih =>
      simp only [number?_concat, Option.bind_eq_some_iff, Option.map_eq_map,
        Option.map_eq_some_iff] at h
      obtain ⟨before, hbefore, last, hlast, rfl⟩ := h
      obtain ⟨values, hvalues, hlength, hsmall, rfl⟩ := ih hbefore
      refine ⟨values ++ [last], by simp [hvalues, hlast], by simp [hlength], ?_, ?_⟩
      · rw [List.forall_mem_append, List.forall_mem_singleton]
        exact ⟨hsmall, (of_value? hlast).1⟩
      · simp [Nat.ofDigits_cons, Nat.add_comm]

/-- Each byte of a number is a pair of its digits in base 16.  The last byte takes
the last two. -/
theorem exists_getElem?_toBigEndian {values : List Nat} {length i high low : Nat}
    (hlength : values.length = 2 * length) (hdigits : ∀ value ∈ values, value < 16)
    (hhigh : values[2 * i]? = some high) (hlow : values[2 * i + 1]? = some low) :
    ∃ byte, (toBigEndian length (Nat.ofDigits 16 values.reverse))[i]? = some byte ∧
      byte.toNat = 16 * high + low := by
  induction length generalizing values with
  | zero =>
      obtain rfl := List.length_eq_zero_iff.mp hlength
      simp at hhigh
  | succ length ih =>
      have htwo : 2 ≤ values.length := by omega
      obtain ⟨front, upper, lower, rfl⟩ := exists_two_behind htwo
      have hupper : upper < 16 := hdigits upper (by simp)
      have hlower : lower < 16 := hdigits lower (by simp)
      have hvalue : Nat.ofDigits 16 (front ++ [upper] ++ [lower]).reverse =
          16 * (16 * Nat.ofDigits 16 front.reverse + upper) + lower := by
        simp [Nat.ofDigits_cons]
        omega
      have hquot : Nat.ofDigits 16 (front ++ [upper] ++ [lower]).reverse / 256 =
          Nat.ofDigits 16 front.reverse := by omega
      simp only [List.length_append, List.length_singleton] at hlength
      rw [toBigEndian, hquot]
      rcases Nat.lt_or_ge i length with hi | hi
      · rw [List.append_assoc, List.getElem?_append_left (by omega)] at hhigh hlow
        have hfront : ∀ value ∈ front, value < 16 := by
          intro value hmem
          exact hdigits value (by simp [hmem])
        rw [List.getElem?_append_left (by simpa using hi)]
        exact ih (by omega) hfront hhigh hlow
      · have hlt := (List.getElem?_eq_some_iff.mp hlow).1
        simp only [List.length_append, List.length_singleton] at hlt
        obtain rfl : i = length := by omega
        have hplace : front.length = 2 * i := by omega
        obtain rfl : upper = high := by
          simpa [hplace] using hhigh
        obtain rfl : lower = low := by
          simpa [hplace] using hlow
        refine ⟨.ofNat
          (Nat.ofDigits 16 (front ++ [upper] ++ [lower]).reverse), by simp, ?_⟩
        rw [UInt8.toNat_ofNat', hvalue]
        omega

end Hex

/-- A text is refused for its length exactly if it has not thirty-two bytes, and
else for a digit exactly if some byte is not the code of one.  Any other text is
read in base 16, which cannot fail, and each byte is a pair of its digits. -/
theorem identifiers_follow_grammar (text : String) :
    let codes := text.toUTF8.data.toList
    (∀ expected actual,
      NodeId.ofHex text = .error (.invalidLength expected actual) ↔
      codes.length ≠ 32 ∧ expected = 32 ∧ actual = codes.length) ∧
    (NodeId.ofHex text = .error .invalidDigit ↔
      codes.length = 32 ∧ ∃ code ∈ codes, Hex.isDigit code = false) ∧
    (codes.length = 32 → (∀ code ∈ codes, Hex.isDigit code = true) →
      ∃ (values : List Nat) (id : NodeId),
        text.toList.map Hex.value? = values.map some ∧ values.length = 32 ∧
        Hex.numeral? (1 <<< 128) text.toList =
          some (Nat.ofDigits 16 values.reverse) ∧
        NodeId.ofHex text = .ok id ∧
        id.toNat = Nat.ofDigits 16 values.reverse ∧
        ∀ i high low, values[2 * i]? = some high → values[2 * i + 1]? = some low →
          ∃ byte, id.bytes.toList[i]? = some byte ∧ byte.toNat = 16 * high + low) ∧
    (∀ id, NodeId.ofHex text = .ok id → ∀ c ∈ text.toList,
      ('0' ≤ c ∧ c ≤ '9') ∨ ('a' ≤ c ∧ c ≤ 'f') ∨ ('A' ≤ c ∧ c ≤ 'F')) := by
  intro codes
  have hdigits : (∃ value, Hex.number? text.toList = some value) ↔
      ∀ code ∈ codes, Hex.isDigit code = true := by
    rw [← Hex.all_isDigit_iff, List.all_eq_true]
  refine ⟨fun _ _ => NodeId.ofHex_eq_invalidLength_iff, ?_, ?_, ?_⟩
  · have hnone : Hex.number? text.toList = none ↔
        ∃ code ∈ codes, Hex.isDigit code = false := by
      rw [← not_iff_not, ← ne_eq, Option.ne_none_iff_exists', hdigits]
      simp
    rw [NodeId.ofHex_eq_invalidDigit_iff, hnone]
    exact Iff.rfl
  · intro hsize hall
    obtain ⟨value, hread⟩ := hdigits.mpr hall
    have hlength := NodeId.length_of_number? hsize hread
    have hbound := NodeId.lt_of_number? hsize hread
    obtain ⟨values, hvalues, hsame, hsmall, rfl⟩ := Hex.exists_values hread
    have hthirty : values.length = 32 := hsame.trans hlength
    refine ⟨values, .ofNat (Nat.ofDigits 16 values.reverse), hvalues, hthirty,
      NodeId.numeral?_of_number? hsize hread, ?_, ?_, ?_⟩
    · exact NodeId.ofHex_eq_ok_iff.mpr ⟨hsize, _, hread, rfl⟩
    · rw [NodeId.toNat_ofNat, Nat.mod_eq_of_lt hbound]
    · intro i high low hhigh hlow
      exact Hex.exists_getElem?_toBigEndian hthirty hsmall hhigh hlow
  · intro id hok c hc
    obtain ⟨_, value, hread, _⟩ := NodeId.ofHex_eq_ok_iff.mp hok
    obtain ⟨digit, hdigit⟩ := Hex.exists_number?_iff.mp ⟨value, hread⟩ c hc
    exact Hex.range_of_value? hdigit

/-- A text in both cases is read.  One with a sign is not, though its number would
be, nor is one of thirty-two bytes in which a character takes two of them, nor a
short one. -/
theorem identifiers_follow_grammar_trial :
    let mixed := "00FFa0000000000000000000DEADbeef"
    let signed := "+0000000000000000000000000000001"
    let accented := "é000000000000000000000000000000"
    (∃ id : NodeId, NodeId.ofHex mixed = .ok id ∧
      id.toNat = 0x00ffa0000000000000000000deadbeef ∧
      ∃ byte, id.bytes.toList[14]? = some byte ∧ byte.toNat = 16 * 11 + 14) ∧
    NodeId.ofHex signed = .error .invalidDigit ∧
    Hex.numeral? (1 <<< 128) signed.toList = some 1 ∧
    accented.length = 31 ∧ NodeId.ofHex accented = .error .invalidDigit ∧
    NodeId.ofHex "abc" = .error (.invalidLength 32 3) := by
  intro mixed signed accented
  refine ⟨?_, ?_, by decide, by decide, ?_, ?_⟩
  · obtain ⟨values, id, hvalues, _, _, hok, hnumber, hbytes⟩ :=
      (identifiers_follow_grammar mixed).2.2.1 (by decide)
        (List.all_eq_true.mp (by decide))
    obtain rfl :
        values = [0, 0, 15, 15, 10, 0, 0, 0, 0, 0, 0, 0, 0, 0, 0, 0, 0, 0, 0, 0,
        0, 0, 0, 0, 13, 14, 10, 13, 11, 14, 14, 15] := by
      apply List.map_injective_iff.mpr (Option.some_injective Nat)
      exact hvalues.symm.trans (by decide)
    exact ⟨id, hok, hnumber.trans (by decide), hbytes 14 11 14 rfl rfl⟩
  · exact (identifiers_follow_grammar signed).2.1.mpr
      ⟨by decide, 43, by decide, by decide⟩
  · exact (identifiers_follow_grammar accented).2.1.mpr
      ⟨by decide, 195, by decide, by decide⟩
  · exact ((identifiers_follow_grammar "abc").1 32 3).mpr
      ⟨by decide, rfl, by decide⟩

end Kademlia

/-
The written form of identifiers.  Writing goes byte by byte and reading takes one
number of base 16, yet they undo each other, but for the case of the letters.
-/
import Mathlib
import Kademlia.NodeId.Hex

namespace Kademlia

namespace Hex

variable {c : Char} {value : Nat} {digits : List Char}

/-- A digit in the case in which it is written. -/
def IsLower (c : Char) : Prop :=
  ('0' ≤ c ∧ c ≤ '9') ∨ ('a' ≤ c ∧ c ≤ 'f')

instance (c : Char) : Decidable (IsLower c) :=
  inferInstanceAs (Decidable (_ ∨ _))

/-- A property of characters below 128 can be checked code by code. -/
theorem of_forall_ascii (property : Char → Prop)
    (h : ∀ code < 128, property (Char.ofNat code)) (hascii : c.toNat < 128) :
    property c := by
  have hcode := h c.toNat hascii
  rwa [Char.ofNat_toNat] at hcode

theorem range_of_value? (h : value? c = some value) :
    ('0' ≤ c ∧ c ≤ '9') ∨ ('a' ≤ c ∧ c ≤ 'f') ∨ ('A' ≤ c ∧ c ≤ 'F') := by
  unfold value? at h
  split at h
  · next hdecimal => exact .inl hdecimal
  · split at h
    · next hlower => exact .inr (.inl hlower)
    · split at h
      · next hupper => exact .inr (.inr hupper)
      · cases h

theorem toNat_lt_of_value? (h : value? c = some value) : c.toNat < 128 := by
  rcases range_of_value? h with hdecimal | hlower | hupper
  · exact Nat.lt_of_le_of_lt hdecimal.2 (by decide)
  · exact Nat.lt_of_le_of_lt hlower.2 (by decide)
  · exact Nat.lt_of_le_of_lt hupper.2 (by decide)

/-- A character that is read as a digit is one byte long, and its value is written
as the same digit of lower case. -/
theorem of_value? (h : value? c = some value) :
    value < 16 ∧ Nat.digitChar value = c.toLower ∧ c.utf8Size = 1 := by
  have hdigit : ∀ value ∈ value? c,
      value < 16 ∧ Nat.digitChar value = c.toLower ∧ c.utf8Size = 1 :=
    of_forall_ascii (fun c => ∀ value ∈ value? c,
      value < 16 ∧ Nat.digitChar value = c.toLower ∧ c.utf8Size = 1)
      (by decide) (toNat_lt_of_value? h)
  exact hdigit value h

theorem isLower_digitChar (h : value < 16) : IsLower (Nat.digitChar value) := by
  have hlower : ∀ value : Fin 16, IsLower (Nat.digitChar value) := by decide
  exact hlower ⟨value, h⟩

theorem isLower_of_mem_pair {byte : UInt8} (h : c ∈ pair byte) : IsLower c := by
  have hlt := byte.toNat_lt
  rcases List.mem_pair.mp h with rfl | rfl
  · exact isLower_digitChar (by omega)
  · exact isLower_digitChar (by omega)

theorem IsLower.toNat_lt (h : IsLower c) : c.toNat < 128 := by
  rcases h with hdecimal | hletter
  · exact Nat.lt_of_le_of_lt hdecimal.2 (by decide)
  · exact Nat.lt_of_le_of_lt hletter.2 (by decide)

theorem IsLower.exists_value? (h : IsLower c) : ∃ value, value? c = some value := by
  have hread : IsLower c → (value? c).isSome = true :=
    of_forall_ascii (fun c => IsLower c → (value? c).isSome = true)
      (by decide) h.toNat_lt
  exact Option.isSome_iff_exists.mp (hread h)

theorem IsLower.toLower_eq (h : IsLower c) : c.toLower = c :=
  of_forall_ascii (fun c => IsLower c → c.toLower = c) (by decide) h.toNat_lt h

/-- Exactly the texts that consist of digits are read. -/
theorem exists_number?_iff :
    (∃ value, number? digits = some value) ↔
      ∀ c ∈ digits, ∃ value, value? c = some value := by
  induction digits using List.reverseRecOn with
  | nil => simp [number?]
  | append_singleton digits c ih =>
      simp only [number?_concat, List.forall_mem_append, ← ih,
        List.forall_mem_singleton, Option.bind_eq_some_iff, Option.map_eq_map,
        Option.map_eq_some_iff]
      constructor
      · rintro ⟨_, before, hbefore, value, hvalue, _⟩
        exact ⟨⟨before, hbefore⟩, value, hvalue⟩
      · rintro ⟨⟨before, hbefore⟩, value, hvalue⟩
        exact ⟨_, before, hbefore, value, hvalue, rfl⟩

/-- Every further digit makes the number that was read at most sixteen times as
big. -/
theorem number?_lt (h : number? digits = some value) :
    value < 16 ^ digits.length := by
  induction digits using List.reverseRecOn generalizing value with
  | nil =>
      obtain rfl : 0 = value := by simpa [number?] using h
      decide
  | append_singleton digits c ih =>
      simp only [number?_concat, Option.bind_eq_some_iff, Option.map_eq_map,
        Option.map_eq_some_iff] at h
      obtain ⟨before, hbefore, last, hlast, rfl⟩ := h
      have hbound := ih hbefore
      have hdigit := (of_value? hlast).1
      rw [List.length_append, List.length_singleton, Nat.pow_succ]
      omega

/-- A sign is no digit, so where there are only digits none is taken off. -/
theorem numeral?_of_number? {bound : Nat} (h : number? digits = some value)
    (hsome : digits ≠ []) (hbound : value < bound) :
    numeral? bound digits = some value := by
  have hsign : digits.head? ≠ some '+' := by
    intro hplus
    have hmem : '+' ∈ digits := List.mem_of_head? hplus
    obtain ⟨digit, hdigit⟩ := exists_number?_iff.mp ⟨value, h⟩ '+' hmem
    exact absurd hdigit (by simp [value?])
  simp [numeral?, hsign, hsome, h, hbound]

theorem isDigit_iff {code : UInt8} :
    isDigit code = true ↔
      (48 ≤ code.toNat ∧ code.toNat ≤ 57) ∨ (97 ≤ code.toNat ∧ code.toNat ≤ 102) ∨
        (65 ≤ code.toNat ∧ code.toNat ≤ 70) := by
  simp only [isDigit, Bool.or_eq_true, Bool.and_eq_true, decide_eq_true_eq,
    UInt8.le_iff_toNat_le, or_assoc]
  exact Iff.rfl

/-- The first byte of a character of several bytes is no code of a digit. -/
theorem exists_isDigit_eq_false (h : ¬ c.toNat < 128) :
    ∃ code ∈ String.utf8EncodeChar c, isDigit code = false := by
  have hbig : ¬ c.val.toNat ≤ 127 := by
    intro hle
    exact h (Nat.lt_succ_of_le hle)
  have hlead : ∀ code : UInt8, 128 ≤ code.toNat → isDigit code = false := by
    intro code hcode
    rw [← Bool.not_eq_true, isDigit_iff]
    omega
  unfold String.utf8EncodeChar
  simp only [hbig, if_false]
  split
  · refine ⟨_, List.mem_cons_self, hlead _ ?_⟩
    rw [UInt8.toNat_ofNat']
    omega
  · split
    · refine ⟨_, List.mem_cons_self, hlead _ ?_⟩
      rw [UInt8.toNat_ofNat']
      omega
    · refine ⟨_, List.mem_cons_self, hlead _ ?_⟩
      rw [UInt8.toNat_ofNat']
      omega

/-- It does not matter whether digits are looked for among the bytes or among the
characters. -/
theorem all_isDigit_utf8EncodeChar (c : Char) :
    (String.utf8EncodeChar c).all isDigit = (value? c).isSome := by
  by_cases hascii : c.toNat < 128
  · exact of_forall_ascii
      (fun c => (String.utf8EncodeChar c).all isDigit = (value? c).isSome)
        (by decide) hascii
  · obtain ⟨code, hcode, hfalse⟩ := exists_isDigit_eq_false hascii
    have hbytes : (String.utf8EncodeChar c).all isDigit = false :=
      List.all_eq_false.mpr ⟨code, hcode, by simp [hfalse]⟩
    have hnone : value? c = none := by
      by_contra hsome
      obtain ⟨value, hvalue⟩ := Option.ne_none_iff_exists'.mp hsome
      exact hascii (toNat_lt_of_value? hvalue)
    rw [hbytes, hnone]
    rfl

theorem toList_toUTF8 (text : String) :
    text.toUTF8.data.toList = text.toList.flatMap String.utf8EncodeChar := by
  conv_lhs => rw [← String.ofList_toList (s := text)]
  rw [String.toUTF8, String.toByteArray_ofList, List.utf8Encode,
    List.data_toByteArray]

theorem all_isDigit_iff {text : String} :
    text.toUTF8.data.toList.all isDigit = true ↔
      ∃ value, number? text.toList = some value := by
  rw [toList_toUTF8, List.all_flatMap, List.all_eq_true, exists_number?_iff]
  simp only [all_isDigit_utf8EncodeChar, Option.isSome_iff_exists]

theorem utf8Len_of_number? (h : number? digits = some value) :
    String.utf8Len digits = digits.length := by
  have hdigits := exists_number?_iff.mp ⟨value, h⟩
  clear h
  induction digits with
  | nil => rfl
  | cons c rest ih =>
      rw [List.forall_mem_cons] at hdigits
      obtain ⟨⟨value, hvalue⟩, hrest⟩ := hdigits
      rw [String.utf8Len_cons, ih hrest, (of_value? hvalue).2.2, List.length_cons]

/-- The digits of a byte string read as the number that the bytes stand for. -/
theorem number?_flatMap_pair (bytes : List UInt8) :
    number? (bytes.flatMap pair) = some (ofBigEndian bytes) := by
  induction bytes using List.reverseRecOn with
  | nil => rfl
  | append_singleton bytes byte ih =>
      rw [List.flatMap_append, List.flatMap_singleton, number?_append_pair, ih,
        ofBigEndian_concat]
      rfl

theorem exists_two_behind {α : Type} {list : List α} (h : 2 ≤ list.length) :
    ∃ front high low, list = front ++ [high] ++ [low] := by
  rcases list.eq_nil_or_concat' with rfl | ⟨more, low, rfl⟩
  · simp at h
  · rcases more.eq_nil_or_concat' with rfl | ⟨front, high, rfl⟩
    · simp at h
    · exact ⟨front, high, low, rfl⟩

/-- The bytes of a number are written with the digits that the number was read from,
in lower case.  The last byte takes the last two digits. -/
theorem flatMap_pair_toBigEndian {length : Nat}
    (hlength : digits.length = 2 * length) (h : number? digits = some value) :
    (toBigEndian length value).flatMap pair = digits.map Char.toLower := by
  induction length generalizing digits value with
  | zero =>
      obtain rfl := List.length_eq_zero_iff.mp hlength
      rfl
  | succ length ih =>
      have htwo : 2 ≤ digits.length := by omega
      obtain ⟨front, high, low, rfl⟩ := exists_two_behind htwo
      simp only [List.length_append, List.length_singleton] at hlength
      have hfront : front.length = 2 * length := by omega
      rw [number?_concat, number?_concat] at h
      simp only [Option.bind_eq_some_iff, Option.map_eq_map,
        Option.map_eq_some_iff] at h
      obtain ⟨_, ⟨before, hbefore, upper, hupper, rfl⟩, lower, hlower, rfl⟩ := h
      obtain ⟨hupper, hhigh, _⟩ := of_value? hupper
      obtain ⟨hlower, hlow, _⟩ := of_value? hlower
      have hquot : (16 * (16 * before + upper) + lower) / 256 = before := by omega
      have hbyte : (UInt8.ofNat (16 * (16 * before + upper) + lower)).toNat =
          16 * upper + lower := by
        rw [UInt8.toNat_ofNat']
        omega
      have hpair : pair (UInt8.ofNat (16 * (16 * before + upper) + lower)) =
          [high.toLower, low.toLower] := by
        have hdiv : (16 * upper + lower) / 16 = upper := by omega
        have hmod : (16 * upper + lower) % 16 = lower := by omega
        rw [pair, hbyte, hdiv, hmod, hhigh, hlow]
      rw [toBigEndian, List.flatMap_append, hquot, ih hfront hbefore,
        List.flatMap_singleton, hpair]
      simp

end Hex

namespace NodeId

variable {text : String} {id : NodeId}

theorem toList_toHex (id : NodeId) :
    id.toHex.toList = id.bytes.toList.flatMap Hex.pair :=
  String.toList_ofList

theorem length_toHex (id : NodeId) : id.toHex.length = digits := by
  rw [← String.length_toList, toList_toHex, List.length_flatMap]
  simp [Hex.pair, id.bytes.length_toList, Nat.mul_comm]

/-- A text that is read has as many bytes as characters. -/
theorem utf8ByteSize_of_number? {value : Nat}
    (h : Hex.number? text.toList = some value) :
    text.utf8ByteSize = text.length := by
  have hbytes := String.utf8ByteSize_ofList text.toList
  rw [String.ofList_toList, Hex.utf8Len_of_number? h,
    String.length_toList] at hbytes
  exact hbytes

theorem length_of_number? {value : Nat} (hsize : text.utf8ByteSize = digits)
    (h : Hex.number? text.toList = some value) : text.toList.length = digits := by
  rw [String.length_toList, ← utf8ByteSize_of_number? h, hsize]

theorem lt_of_number? {value : Nat} (hsize : text.utf8ByteSize = digits)
    (h : Hex.number? text.toList = some value) : value < 2 ^ 128 := by
  have hbound := Hex.number?_lt h
  rw [length_of_number? hsize h] at hbound
  exact hbound

/-- The number of a text of the right length is always read: it has a digit, it has
no sign, and it is below the bound. -/
theorem numeral?_of_number? {value : Nat} (hsize : text.utf8ByteSize = digits)
    (h : Hex.number? text.toList = some value) :
    Hex.numeral? (1 <<< 128) text.toList = some value := by
  have hsome : text.toList ≠ [] :=
    List.ne_nil_of_length_eq_add_one (length_of_number? hsize h)
  exact Hex.numeral?_of_number? h hsome (lt_of_number? hsize h)

/-- What becomes of a text.  Past the check of the digits there is no refusal
left. -/
theorem ofHex_cases (text : String) :
    (text.utf8ByteSize ≠ digits ∧
        ofHex text = .error (.invalidLength digits text.utf8ByteSize)) ∨
      (text.utf8ByteSize = digits ∧ Hex.number? text.toList = none ∧
        ofHex text = .error .invalidDigit) ∨
      (text.utf8ByteSize = digits ∧ ∃ value, Hex.number? text.toList = some value ∧
        ofHex text = .ok (ofNat value)) := by
  by_cases hsize : text.utf8ByteSize = digits
  · cases hread : Hex.number? text.toList with
    | none =>
        have hdigits : ¬ text.toUTF8.data.toList.all Hex.isDigit = true := by
          rw [Hex.all_isDigit_iff, hread]
          simp
        refine .inr (.inl ⟨hsize, rfl, ?_⟩)
        rw [ofHex, if_neg (not_not.mpr hsize), if_pos hdigits]
    | some value =>
        have hdigits := Hex.all_isDigit_iff.mpr ⟨value, hread⟩
        refine .inr (.inr ⟨hsize, value, rfl, ?_⟩)
        rw [ofHex, if_neg (not_not.mpr hsize), if_neg (not_not.mpr hdigits),
          numeral?_of_number? hsize hread]
  · refine .inl ⟨hsize, ?_⟩
    rw [ofHex, if_pos hsize]

theorem ofHex_eq_ok_iff :
    ofHex text = .ok id ↔ text.utf8ByteSize = digits ∧
      ∃ value, Hex.number? text.toList = some value ∧ ofNat value = id := by
  rcases ofHex_cases text with ⟨hsize, h⟩ | ⟨_, hread, h⟩ | ⟨hsize, value, hread, h⟩
  · simp [h, hsize]
  · simp [h, hread]
  · simp [h, hsize, hread]

theorem ofHex_eq_invalidLength_iff {expected actual : Nat} :
    ofHex text = .error (.invalidLength expected actual) ↔
      text.utf8ByteSize ≠ digits ∧ expected = digits ∧
        actual = text.utf8ByteSize := by
  rcases ofHex_cases text with ⟨hsize, h⟩ | ⟨hsize, _, h⟩ | ⟨hsize, value, _, h⟩
  · simp [h, hsize, eq_comm]
  · simp [h, hsize]
  · simp [h, hsize]

theorem ofHex_eq_invalidDigit_iff :
    ofHex text = .error .invalidDigit ↔
      text.utf8ByteSize = digits ∧ Hex.number? text.toList = none := by
  rcases ofHex_cases text with ⟨hsize, h⟩ | ⟨hsize, hread, h⟩ | ⟨_, value, hread, h⟩
  · simp [h, hsize]
  · simp [h, hsize, hread]
  · simp [h, hread]

theorem ofHex_toHex (id : NodeId) : ofHex id.toHex = .ok id := by
  have hread : Hex.number? id.toHex.toList = some id.toNat := by
    rw [toList_toHex]
    exact Hex.number?_flatMap_pair id.bytes.toList
  have hsize : id.toHex.utf8ByteSize = digits := by
    rw [utf8ByteSize_of_number? hread, length_toHex]
  exact ofHex_eq_ok_iff.mpr ⟨hsize, id.toNat, hread, ofNat_toNat id⟩

theorem toHex_injective : Function.Injective toHex := by
  intro a b h
  have hread := ofHex_toHex a
  rw [h, ofHex_toHex b] at hread
  exact (Except.ok.inj hread).symm

theorem toHex_of_ofHex (h : ofHex text = .ok id) : id.toHex = text.toLower := by
  obtain ⟨hsize, value, hread, rfl⟩ := ofHex_eq_ok_iff.mp h
  rw [← String.toList_inj, toList_toHex, String.toLower, String.toList_map]
  exact Hex.flatMap_pair_toBigEndian (length_of_number? hsize hread) hread

/-- A text of the right length in lower-case digits is its own written form. -/
theorem exists_toHex_eq (hlength : text.length = digits)
    (hlower : ∀ c ∈ text.toList, Hex.IsLower c) :
    ∃ id : NodeId, id.toHex = text := by
  obtain ⟨value, hread⟩ := Hex.exists_number?_iff.mpr fun c hc =>
    (hlower c hc).exists_value?
  have hsize : text.utf8ByteSize = digits :=
    (utf8ByteSize_of_number? hread).trans hlength
  have hok : ofHex text = .ok (ofNat value) :=
    ofHex_eq_ok_iff.mpr ⟨hsize, value, hread, rfl⟩
  have hsame : text.toList.map Char.toLower = text.toList.map id :=
    List.map_congr_left fun c hc => (hlower c hc).toLower_eq
  refine ⟨ofNat value, ?_⟩
  rw [toHex_of_ofHex hok, ← String.toList_inj, String.toLower,
    String.toList_map, hsame, List.map_id]

theorem isLower_of_mem_toHex {c : Char} (h : c ∈ id.toHex.toList) :
    Hex.IsLower c := by
  rw [toList_toHex] at h
  obtain ⟨byte, _, hpair⟩ := List.mem_flatMap.mp h
  exact Hex.isLower_of_mem_pair hpair

end NodeId

/-- An identifier is read back from its written form, and what is read from a text
is written as that text in lower case.  So no two identifiers are written alike, and
two texts name one identifier exactly if they differ in case alone. -/
theorem hex_texts_name_identifiers :
    (∀ id : NodeId, NodeId.ofHex id.toHex = .ok id) ∧
    (∀ text id, NodeId.ofHex text = .ok id → id.toHex = text.toLower) ∧
    Function.Injective NodeId.toHex ∧
    Set.range NodeId.toHex =
      {text | text.length = 32 ∧ ∀ c ∈ text.toList, Hex.IsLower c} ∧
    (∀ first second a b, NodeId.ofHex first = .ok a → NodeId.ofHex second = .ok b →
      (a = b ↔ first.toLower = second.toLower)) := by
  refine ⟨NodeId.ofHex_toHex,
    fun _ _ => NodeId.toHex_of_ofHex, NodeId.toHex_injective,
    ?_, ?_⟩
  · ext text
    constructor
    · rintro ⟨id, rfl⟩
      exact ⟨NodeId.length_toHex id, fun _ => NodeId.isLower_of_mem_toHex⟩
    · rintro ⟨hlength, hlower⟩
      exact NodeId.exists_toHex_eq hlength hlower
  · intro first second a b hfirst hsecond
    rw [← NodeId.toHex_of_ofHex hfirst, ← NodeId.toHex_of_ofHex hsecond,
      NodeId.toHex_injective.eq_iff]

/-- A text in both cases and the same text in one name the same identifier, of which
the second is the written form. -/
theorem hex_texts_name_identifiers_trial :
    let mixed := "00FFa0000000000000000000DEADbeef"
    let lower := "00ffa0000000000000000000deadbeef"
    let id : NodeId := .ofNat 0x00ffa0000000000000000000deadbeef
    NodeId.ofHex mixed = .ok id ∧ NodeId.ofHex lower = .ok id ∧ id.toHex = lower ∧
      mixed.toLower = lower ∧ mixed.toLower = lower.toLower ∧
      mixed ∉ Set.range NodeId.toHex := by
  intro mixed lower id
  have hmixed : NodeId.ofHex mixed = .ok id :=
    NodeId.ofHex_eq_ok_iff.mpr
      ⟨by decide, 0x00ffa0000000000000000000deadbeef, by decide, rfl⟩
  have hlower : NodeId.ofHex lower = .ok id :=
    NodeId.ofHex_eq_ok_iff.mpr
      ⟨by decide, 0x00ffa0000000000000000000deadbeef, by decide, rfl⟩
  obtain ⟨hread, hwritten, _, hrange, hcase⟩ := hex_texts_name_identifiers
  have hhex : id.toHex = lower := by decide
  refine ⟨hmixed, hlower, hhex, ?_, ?_, ?_⟩
  · exact (hwritten mixed id hmixed).symm.trans hhex
  · exact (hcase mixed lower id id hmixed hlower).mp rfl
  · rw [hrange]
    rintro ⟨_, hcapital⟩
    exact absurd (hcapital 'F' (by decide)) (by decide)

end Kademlia

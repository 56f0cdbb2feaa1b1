/-
Byte strings of a known length, read as base-256 numerals with the most
significant byte first.  A string is told by its value.
-/

namespace Kademlia

/-- The number whose base-256 digits are `bytes`, most significant first. -/
def ofBigEndian (bytes : List UInt8) : Nat :=
  bytes.foldl (fun value byte => 256 * value + byte.toNat) 0

/-- The last `length` base-256 digits of `value`, most significant first. -/
def toBigEndian : (length value : Nat) → List UInt8
  | 0, _ => []
  | length + 1, value =>
      toBigEndian length (value / 256) ++ [UInt8.ofNat value]

theorem ofBigEndian_nil : ofBigEndian [] = 0 := rfl

theorem ofBigEndian_concat (bytes : List UInt8) (byte : UInt8) :
    ofBigEndian (bytes ++ [byte]) = 256 * ofBigEndian bytes + byte.toNat := by
  simp [ofBigEndian]

@[simp] theorem length_toBigEndian (length value : Nat) :
    (toBigEndian length value).length = length := by
  induction length generalizing value with
  | zero => rfl
  | succ length ih => simp [toBigEndian, ih]

theorem toBigEndian_ofBigEndian (bytes : List UInt8) :
    toBigEndian bytes.length (ofBigEndian bytes) = bytes := by
  rw [← List.reverse_reverse bytes]
  induction bytes.reverse with
  | nil => rfl
  | cons byte rest ih =>
      rw [List.reverse_cons, ofBigEndian_concat]
      have hquot : (256 * ofBigEndian rest.reverse + byte.toNat) / 256 =
          ofBigEndian rest.reverse := by
        have := byte.toNat_lt
        omega
      have hlast : UInt8.ofNat (256 * ofBigEndian rest.reverse + byte.toNat) =
          byte := by
        apply UInt8.toNat.inj
        have := byte.toNat_lt
        rw [UInt8.toNat_ofNat']
        omega
      rw [List.length_append, List.length_singleton, toBigEndian, hquot, hlast, ih]

/-- A byte string of exactly `length` bytes. -/
structure Octets (length : Nat) where
  toList : List UInt8
  length_toList : toList.length = length
deriving DecidableEq

namespace Octets

variable {length : Nat}

@[ext] theorem ext {a b : Octets length} (h : a.toList = b.toList) : a = b := by
  cases a
  cases b
  simpa using h

/-- The value of the string as a base-256 numeral. -/
def toNat (bytes : Octets length) : Nat :=
  ofBigEndian bytes.toList

/-- The numeral of `value`, of which only the last `length` digits are kept. -/
def ofNat (value : Nat) : Octets length :=
  ⟨toBigEndian length value, length_toBigEndian length value⟩

theorem ofNat_toNat (bytes : Octets length) : ofNat bytes.toNat = bytes := by
  obtain ⟨list, rfl⟩ := bytes
  exact ext (toBigEndian_ofBigEndian list)

theorem toNat_inj {a b : Octets length} : a.toNat = b.toNat ↔ a = b :=
  ⟨fun h => by rw [← ofNat_toNat a, h, ofNat_toNat], fun h => by rw [h]⟩

/-- `bytes` as a string of `length` bytes, when it has that many. -/
def ofList? (length : Nat) (bytes : List UInt8) : Option (Octets length) :=
  if h : bytes.length = length then some ⟨bytes, h⟩ else none

end Octets

end Kademlia

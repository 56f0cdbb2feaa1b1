/-
Hexadecimal text.  Writing uses lower-case digits, two to a byte; reading takes
digits of either case, as characters or as bytes of UTF-8.
-/

namespace Kademlia

/-- The value of a hexadecimal digit of either case. -/
def Hex.value? (c : Char) : Option Nat :=
  if '0' ≤ c ∧ c ≤ '9' then some (c.toNat - '0'.toNat)
  else if 'a' ≤ c ∧ c ≤ 'f' then some (c.toNat - 'a'.toNat + 10)
  else if 'A' ≤ c ∧ c ≤ 'F' then some (c.toNat - 'A'.toNat + 10)
  else none

/-- The code of a hexadecimal digit of either case. -/
def Hex.isDigit (code : UInt8) : Bool :=
  ('0'.toUInt8 ≤ code && code ≤ '9'.toUInt8) ||
    ('a'.toUInt8 ≤ code && code ≤ 'f'.toUInt8) ||
    ('A'.toUInt8 ≤ code && code ≤ 'F'.toUInt8)

/-- The two digits of a byte, high half first. -/
def Hex.pair (byte : UInt8) : List Char :=
  [Nat.digitChar (byte.toNat / 16), Nat.digitChar (byte.toNat % 16)]

def Hex.ofBytes (bytes : List UInt8) : String :=
  String.ofList (bytes.flatMap Hex.pair)

/-- The base-16 value of a run of digits, or nothing if some character is not a
digit. -/
def Hex.number? (digits : List Char) : Option Nat :=
  digits.foldlM (fun value c => (16 * value + ·) <$> Hex.value? c) 0

/-- A numeral of base 16 as numbers below a bound are read: a plus sign may stand
before the digits, of which there is at least one. -/
def Hex.numeral? (bound : Nat) (text : List Char) : Option Nat :=
  let digits := if text.head? = some '+' then text.tail else text
  if digits = [] then none
  else (Hex.number? digits).filter fun value => value < bound

/-- The bytes written by a run of digit pairs. -/
def Hex.bytes? : List Char → Option (List UInt8)
  | [] => some []
  | [_] => none
  | high :: low :: rest => do
      let byte := 16 * (← Hex.value? high) + (← Hex.value? low)
      return UInt8.ofNat byte :: (← Hex.bytes? rest)

theorem Hex.value?_digitChar {value : Nat} (h : value < 16) :
    Hex.value? (Nat.digitChar value) = some value := by
  have hvalue :
      ∀ value : Fin 16, Hex.value? (Nat.digitChar value) = some value.val := by
    decide
  exact hvalue ⟨value, h⟩

theorem Hex.number?_concat (digits : List Char) (c : Char) :
    Hex.number? (digits ++ [c]) =
      (Hex.number? digits).bind fun value => (16 * value + ·) <$> Hex.value? c := by
  simp [Hex.number?]

/-- The two digits of a byte add the byte behind the number that was read. -/
theorem Hex.number?_append_pair (digits : List Char) (byte : UInt8) :
    Hex.number? (digits ++ Hex.pair byte) =
      (Hex.number? digits).map fun value => 256 * value + byte.toNat := by
  have hlt := byte.toNat_lt
  have hhigh :
      Hex.value? (Nat.digitChar (byte.toNat / 16)) = some (byte.toNat / 16) :=
    Hex.value?_digitChar (by omega)
  have hlow : Hex.value? (Nat.digitChar (byte.toNat % 16)) =
      some (byte.toNat % 16) :=
    Hex.value?_digitChar (by omega)
  have hsplit : Hex.pair byte =
      [Nat.digitChar (byte.toNat / 16)] ++ [Nat.digitChar (byte.toNat % 16)] := rfl
  rw [hsplit, ← List.append_assoc, Hex.number?_concat,
    Hex.number?_concat, hhigh, hlow]
  cases Hex.number? digits with
  | none => rfl
  | some value =>
      simp
      omega

end Kademlia

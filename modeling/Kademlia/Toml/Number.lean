/-
Numbers.  Integers have 64 bits and a sign; floating-point numbers are kept as
the decimals they are written as, and one too large for double precision is
refused.
-/
import Kademlia.Hex
import Kademlia.Toml.Blank

namespace Kademlia.Toml

/-- A number written as `digits * 10 ^ exponent`. -/
structure Decimal where
  negative : Bool
  digits : Nat
  exponent : Int
deriving DecidableEq

inductive Floating where
  | decimal (value : Decimal)
  | infinity (negative : Bool)
  | nan (negative : Bool)
deriving DecidableEq

inductive Number where
  | integer (value : Int)
  | floating (value : Floating)
deriving DecidableEq

/-- The value of a run of decimal digits. -/
def decimalValue (digits : List Char) : Nat :=
  digits.foldl (fun value c => 10 * value + (c.toNat - '0'.toNat)) 0

/-- The least magnitude that double precision rounds to infinity: half a step
above the largest finite number, which has 53 binary digits before 971
zeros. -/
def doubleLimit : Nat :=
  (1 <<< 54 - 1) <<< 970

/-- Whether a decimal is too large for double precision.  The powers of ten are
capped where a larger one would not change the answer. -/
def Decimal.overflows (value : Decimal) : Bool :=
  match value.exponent with
  | .ofNat exponent =>
      doubleLimit ≤ value.digits * Nat.pow 10 (min exponent 309)
  | .negSucc exponent =>
      let places := (Nat.toDigits 10 value.digits).length
      doubleLimit * Nat.pow 10 (min (exponent + 1) places) ≤ value.digits

/-- A run of digits, in which single underscores may stand between two
digits. -/
def digitRun (isDigit : Char → Bool) (text : List Char) :
    Option (List Char × List Char) :=
  match text with
  | [] => none
  | c :: rest =>
      if isDigit c then
        match rest with
        | [] => some ([c], [])
        | next :: more =>
            if next = '_' then do
              let (read, rest) ← digitRun isDigit more
              some (c :: read, rest)
            else if isDigit next then do
              let (read, rest) ← digitRun isDigit (next :: more)
              some (c :: read, rest)
            else some ([c], next :: more)
      else none
termination_by text.length

/-- The digits of a decimal integer.  A leading zero stands alone. -/
def wholeDigits : Reader (List Char)
  | '0' :: rest => some (['0'], rest)
  | text => digitRun Char.isDigit text

/-- The sign of a number, if one is written, and whether it is a minus. -/
def sign : List Char → Option Bool × List Char
  | '+' :: rest => (some false, rest)
  | '-' :: rest => (some true, rest)
  | text => (none, text)

/-- A point and the digits behind it, if there is a point. -/
def fractionPart : Reader (Option (List Char))
  | '.' :: rest => do
      let (digits, rest) ← digitRun Char.isDigit rest
      some (some digits, rest)
  | text => some (none, text)

/-- The digits behind an exponent mark. -/
def exponentDigits : Reader Int := fun text => do
  let (minus?, rest) := sign text
  let (digits, rest) ← digitRun Char.isDigit rest
  let value : Int := decimalValue digits
  some (if minus? = some true then -value else value, rest)

/-- An exponent, if there is an exponent mark. -/
def exponentPart : Reader (Option Int)
  | 'e' :: rest | 'E' :: rest => do
      let (exponent, rest) ← exponentDigits rest
      some (some exponent, rest)
  | text => some (none, text)

/-- How many integers of 64 bits are not negative, and how many are. -/
abbrev integerLimit : Nat := 9223372036854775808

/-- A signed integer, if it fits in 64 bits. -/
def integer? (negative : Bool) (magnitude : Nat) : Option Number :=
  if negative then
    if magnitude ≤ integerLimit then some (.integer (-magnitude)) else none
  else if magnitude < integerLimit then some (.integer magnitude)
  else none

/-- A floating-point number, if it is not above the range. -/
def floating? (value : Decimal) : Option Number :=
  if !value.negative && value.overflows then none
  else some (.floating (.decimal value))

/-- A decimal number after its sign: an integer unless it has a fraction or an
exponent. -/
def decimal (negative : Bool) : Reader Number := fun text => do
  let (whole, rest) ← wholeDigits text
  let (fraction?, rest) ← fractionPart rest
  let (exponent?, rest) ← exponentPart rest
  let number ←
    match fraction?, exponent? with
    | none, none => integer? negative (decimalValue whole)
    | _, _ =>
        let fraction := fraction?.getD []
        floating? {
          negative
          digits := decimalValue (whole ++ fraction)
          exponent := exponent?.getD 0 - fraction.length }
  some (number, rest)

/-- The digits of a number in another base, behind its mark. -/
def based (base : Nat) : Reader Number := fun text => do
  let isDigit := fun c =>
    match Hex.value? c with
    | some value => value < base
    | none => false
  let (digits, rest) ← digitRun isDigit text
  let value := digits.foldl (fun value c => base * value + (Hex.value? c).getD 0) 0
  let number ← integer? false value
  some (number, rest)

/-- A number of any form.  Only a number without a sign may be in another
base. -/
def number : Reader Number := fun text =>
  let (minus?, rest) := sign text
  let negative := minus? = some true
  match minus?, rest with
  | _, 'i' :: 'n' :: 'f' :: rest =>
      some (.floating (.infinity negative), rest)
  | _, 'n' :: 'a' :: 'n' :: rest => some (.floating (.nan negative), rest)
  | none, '0' :: 'x' :: rest => based 16 rest
  | none, '0' :: 'o' :: rest => based 8 rest
  | none, '0' :: 'b' :: rest => based 2 rest
  | _, _ => decimal negative rest

end Kademlia.Toml

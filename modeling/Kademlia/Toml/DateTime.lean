/-
Dates and times.  A date has four digits of year, a time must have seconds, and
an offset from universal time needs both a date and a time.
-/
import Kademlia.Toml.Number

namespace Kademlia.Toml

structure Date where
  year : Nat
  month : Nat
  day : Nat
deriving DecidableEq

structure Time where
  hour : Nat
  minute : Nat
  second : Nat
  /-- The digits behind the point of the seconds. -/
  fraction : List Char
deriving DecidableEq

inductive DateTime where
  | date (date : Date)
  | time (time : Time)
  /-- The offset is in minutes, if there is one. -/
  | full (date : Date) (time : Time) (offset : Option Int)
deriving DecidableEq

def isLeapYear (year : Nat) : Bool :=
  year % 4 = 0 && (year % 100 ≠ 0 || year % 400 = 0)

def daysInMonth (year month : Nat) : Nat :=
  match month with
  | 2 => if isLeapYear year then 29 else 28
  | 4 | 6 | 9 | 11 => 30
  | _ => 31

def Date.Valid (date : Date) : Prop :=
  1 ≤ date.month ∧ date.month ≤ 12 ∧
    1 ≤ date.day ∧ date.day ≤ daysInMonth date.year date.month

instance (date : Date) : Decidable date.Valid :=
  inferInstanceAs (Decidable (_ ∧ _ ∧ _ ∧ _))

/-- A minute may have a leap second. -/
def Time.Valid (time : Time) : Prop :=
  time.hour ≤ 23 ∧ time.minute ≤ 59 ∧ time.second ≤ 60

instance (time : Time) : Decidable time.Valid :=
  inferInstanceAs (Decidable (_ ∧ _ ∧ _))

/-- A number of exactly `width` decimal digits. -/
def digitsOf (width : Nat) : Reader Nat := fun text =>
  let digits := text.take width
  if digits.length = width ∧ digits.all Char.isDigit then
    some (decimalValue digits, text.drop width)
  else none

/-- What follows a character that has to come next. -/
def expect (c : Char) : List Char → Option (List Char)
  | first :: rest => if first = c then some rest else none
  | [] => none

/-- Four digits and a dash can only begin a date. -/
def startsDate : List Char → Bool
  | a :: b :: c :: d :: '-' :: _ => [a, b, c, d].all Char.isDigit
  | _ => false

/-- Two digits and a colon can only begin a time. -/
def startsTime : List Char → Bool
  | a :: b :: ':' :: _ => [a, b].all Char.isDigit
  | _ => false

def readDate : Reader Date := fun text => do
  let (year, rest) ← digitsOf 4 text
  let rest ← expect '-' rest
  let (month, rest) ← digitsOf 2 rest
  let rest ← expect '-' rest
  let (day, rest) ← digitsOf 2 rest
  let date : Date := ⟨year, month, day⟩
  if date.Valid then some (date, rest) else none

/-- The digits behind the point of the seconds, if there is a point. -/
def secondFraction : List Char → Option (List Char × List Char)
  | '.' :: rest =>
      let digits := rest.takeWhile Char.isDigit
      if digits = [] then none
      else some (digits, rest.dropWhile Char.isDigit)
  | text => some ([], text)

def readTime : Reader Time := fun text => do
  let (hour, rest) ← digitsOf 2 text
  let rest ← expect ':' rest
  let (minute, rest) ← digitsOf 2 rest
  let rest ← expect ':' rest
  let (second, rest) ← digitsOf 2 rest
  let (fraction, rest) ← secondFraction rest
  let time : Time := ⟨hour, minute, second, fraction⟩
  if time.Valid then some (time, rest) else none

/-- Hours and minutes of an offset behind its sign, in minutes. -/
def readOffset : Reader Int := fun text => do
  let (hours, rest) ← digitsOf 2 text
  let rest ← expect ':' rest
  let (minutes, rest) ← digitsOf 2 rest
  if hours ≤ 23 ∧ minutes ≤ 59 then
    some ((60 * hours + minutes : Nat), rest)
  else none

/-- An offset from universal time, if one is written. -/
def offsetPart : Reader (Option Int)
  | 'Z' :: rest | 'z' :: rest => some (some 0, rest)
  | '+' :: rest => (readOffset rest).map fun (offset, rest) => (some offset, rest)
  | '-' :: rest =>
      (readOffset rest).map fun (offset, rest) => (some (-offset), rest)
  | text => some (none, text)

/-- The text of the time behind a date, if there is one.  A blank is part of the
date only when a time follows. -/
def timeBehind? : List Char → Option (List Char)
  | mark :: rest =>
      if (mark = 'T' || mark = 't' || mark = ' ') && startsTime rest then
        some rest
      else none
  | [] => none

/-- A date, a time or both, of which the beginning has been recognised. -/
def dateTime : Reader DateTime := fun text =>
  if startsDate text then do
    let (date, rest) ← readDate text
    match timeBehind? rest with
    | none => some (.date date, rest)
    | some behind => do
        let (time, rest) ← readTime behind
        let (offset, rest) ← offsetPart rest
        some (.full date time offset, rest)
  else do
    let (time, rest) ← readTime text
    some (.time time, rest)

end Kademlia.Toml

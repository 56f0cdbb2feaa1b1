/-
Whole documents: lines that give keys their values, under headers that open
tables.  A document is valid as a whole or not at all.
-/
import Kademlia.Toml.Value

namespace Kademlia.Toml

/-- What one line of a document does. -/
inductive Statement where
  | assign (path : KeyPath) (value : Value)
  /-- `[path]` -/
  | openTable (path : KeyPath)
  /-- `[[path]]` -/
  | openElement (path : KeyPath)

/-- One statement at the beginning of a text. -/
def statement : Reader Statement
  | '[' :: '[' :: rest => do
      let (path, rest) ← keyPath rest
      let rest ← expectWord [']', ']'] rest
      some (.openElement path, rest)
  | '[' :: rest => do
      let (path, rest) ← keyPath rest
      let rest ← expect ']' rest
      some (.openTable path, rest)
  | text => do
      let ((path, value), rest) ← assignment (value depthLimit) text
      some (.assign path value, rest)

/-- The statements of a text, one to a line.  A statement has to take something
from the text for the reading to go on. -/
def statements (text : List Char) : Option (List Statement) :=
  match text with
  | [] => some []
  | c :: cs =>
      match _h : lineEnd? (c :: cs) with
      | some rest => statements rest
      | none =>
          match statement (skipBlank (c :: cs)) with
          | none => none
          | some (first, rest) =>
              match lineEnd? rest with
              | none => none
              | some rest =>
                  if rest.length ≤ cs.length then
                    (first :: ·) <$> statements rest
                  else none
termination_by text.length
decreasing_by
  · exact Nat.lt_succ_of_le (length_le_of_lineEnd? _h)
  · exact Nat.lt_succ_of_le ‹_›

/-- The values given before the next header, and the statements from that header
on. -/
def leadingFields : List Statement → List (KeyPath × Value) × List Statement
  | .assign path value :: rest =>
      let (fields, rest) := leadingFields rest
      ((path, value) :: fields, rest)
  | rest => ([], rest)

theorem length_leadingFields_le (lines : List Statement) :
    (leadingFields lines).2.length ≤ lines.length := by
  induction lines with
  | nil => simp [leadingFields]
  | cons first rest ih =>
      cases first <;> simp [leadingFields]
      omega

/-- Carry out statements from a header on, each header with the values under
it. -/
def addSections (entries : Entries) (lines : List Statement) : Option Entries :=
  match lines with
  | [] => some entries
  | .assign _ _ :: _ => none
  | .openTable path :: rest => do
      let entries ← entries.within (Entries.openTable (leadingFields rest).1) path
      addSections entries (leadingFields rest).2
  | .openElement path :: rest => do
      let entries ← entries.within (Entries.openElement (leadingFields rest).1) path
      addSections entries (leadingFields rest).2
termination_by lines.length
decreasing_by
  all_goals exact Nat.lt_succ_of_le (length_leadingFields_le rest)

/-- The table that a list of statements makes up. -/
def Entries.ofStatements? (lines : List Statement) : Option Entries := do
  let entries ← Entries.assignAll [] (leadingFields lines).1
  addSections entries (leadingFields lines).2

/-- A byte order mark at the beginning does not count. -/
def skipByteOrderMark : List Char → List Char
  | '\ufeff' :: rest => rest
  | text => text

/-- The top table of a document. -/
def Entries.ofText? (text : String) : Option Entries := do
  Entries.ofStatements? (← statements (skipByteOrderMark text.toList))

end Kademlia.Toml

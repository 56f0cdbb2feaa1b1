/-
What may stand between the tokens of a TOML text: blanks, comments and the ends
of lines.  Every function here takes the text that is left and gives the text
that is left afterwards.
-/

namespace Kademlia.Toml

/-- A reader takes something from the front of a text and leaves the rest of the
text, or refuses. -/
abbrev Reader (α : Type) := List Char → Option (α × List Char)

def isBlank (c : Char) : Bool :=
  c = ' ' || c = '\t'

/-- A character that may stand in a line: a tab or anything but a control
character. -/
def isPlain (c : Char) : Bool :=
  c = '\t' || (' ' ≤ c && c ≠ '\x7f')

def skipBlank (text : List Char) : List Char :=
  text.dropWhile isBlank

/-- Skip a comment as far as it has no control characters. -/
def skipComment : List Char → List Char
  | '#' :: rest => rest.dropWhile isPlain
  | text => text

/-- What follows a line break.  A carriage return alone is none. -/
def newline? : List Char → Option (List Char)
  | '\n' :: rest => some rest
  | '\r' :: '\n' :: rest => some rest
  | _ => none

/-- What follows the end of a line, at which nothing but blanks and a comment
may stand.  The text may end in place of the line. -/
def lineEnd? (text : List Char) : Option (List Char) :=
  match skipComment (skipBlank text) with
  | [] => some []
  | rest => newline? rest

theorem length_skipBlank_le (text : List Char) :
    (skipBlank text).length ≤ text.length :=
  (List.dropWhile_suffix isBlank).length_le

theorem length_skipComment_le (text : List Char) :
    (skipComment text).length ≤ text.length := by
  unfold skipComment
  split
  · exact Nat.le_succ_of_le (List.dropWhile_suffix isPlain).length_le
  · exact Nat.le_refl _

theorem length_lt_of_newline? {text rest : List Char}
    (h : newline? text = some rest) : rest.length < text.length := by
  unfold newline? at h
  split at h
  · cases h
    exact Nat.lt_succ_self _
  · cases h
    exact Nat.lt_succ_of_lt (Nat.lt_succ_self _)
  · cases h

theorem length_le_of_lineEnd? {c : Char} {text rest : List Char}
    (h : lineEnd? (c :: text) = some rest) : rest.length ≤ text.length := by
  have hlength : (skipComment (skipBlank (c :: text))).length ≤ text.length + 1 :=
    Nat.le_trans (length_skipComment_le _) (length_skipBlank_le _)
  unfold lineEnd? at h
  split at h
  · cases h
    exact Nat.zero_le _
  · have := length_lt_of_newline? h
    omega

/-- Skip blanks and line breaks. -/
def skipBlankLines (text : List Char) : List Char :=
  match _h : newline? (skipBlank text) with
  | none => skipBlank text
  | some rest => skipBlankLines rest
termination_by text.length
decreasing_by
  exact Nat.lt_of_lt_of_le (length_lt_of_newline? _h) (length_skipBlank_le text)

theorem length_skipBlankLines_le (text : List Char) :
    (skipBlankLines text).length ≤ text.length := by
  induction text using skipBlankLines.induct with
  | case1 text h =>
      rw [skipBlankLines, h]
      exact length_skipBlank_le text
  | case2 text rest h ih =>
      rw [skipBlankLines, h]
      have h₁ := length_lt_of_newline? h
      have h₂ := length_skipBlank_le text
      simp only
      omega

/-- Skip blanks, line breaks and comments that end in a line break. -/
def skipLines (text : List Char) : List Char :=
  match _h : newline? (skipComment (skipBlank text)) with
  | none => skipBlank text
  | some rest => skipLines rest
termination_by text.length
decreasing_by
  have h₁ := length_lt_of_newline? _h
  have h₂ := length_skipComment_le (skipBlank text)
  have h₃ := length_skipBlank_le text
  omega

end Kademlia.Toml

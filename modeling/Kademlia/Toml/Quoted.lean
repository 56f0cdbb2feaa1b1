/-
Quoted text: basic strings, in which a backslash escapes, and literal strings,
in which nothing does; both on one line or between triple quotes over several.
-/
import Kademlia.Hex
import Kademlia.Toml.Blank

namespace Kademlia.Toml

/-- The character with a code point, if there is one. -/
def charOfCode? (code : Nat) : Option Char :=
  if code.isValidChar then some (Char.ofNat code) else none

/-- A character given by exactly `width` hexadecimal digits. -/
def codePoint (width : Nat) : Reader Char := fun text => do
  let digits := text.take width
  if digits.length ≠ width then none
  else
    let code ← Hex.number? digits
    let c ← charOfCode? code
    some (c, text.drop width)

/-- What a one-letter escape stands for. -/
def escaped? : Char → Option Char
  | 'b' => some '\x08'
  | 't' => some '\t'
  | 'n' => some '\n'
  | 'f' => some '\x0c'
  | 'r' => some '\r'
  | '\x22' => some '\x22'
  | '\x5c' => some '\x5c'
  | _ => none

/-- An escape after its backslash. -/
def escape : Reader Char
  | 'u' :: rest => codePoint 4 rest
  | 'U' :: rest => codePoint 8 rest
  | c :: rest => (escaped? c).map (·, rest)
  | [] => none

theorem length_le_of_codePoint {width : Nat} {text rest : List Char} {c : Char}
    (h : codePoint width text = some (c, rest)) : rest.length ≤ text.length := by
  simp only [codePoint, Option.bind_eq_bind] at h
  split at h
  · cases h
  · simp only [Option.bind_eq_some_iff, Option.some.injEq, Prod.mk.injEq] at h
    obtain ⟨_, _, _, _, _, rfl⟩ := h
    simp

theorem length_le_of_escape {text rest : List Char} {c : Char}
    (h : escape text = some (c, rest)) : rest.length ≤ text.length := by
  unfold escape at h
  split at h
  · exact Nat.le_succ_of_le (length_le_of_codePoint h)
  · exact Nat.le_succ_of_le (length_le_of_codePoint h)
  · simp only [Option.map_eq_some_iff, Prod.mk.injEq] at h
    obtain ⟨_, _, _, rfl⟩ := h
    exact Nat.le_succ _
  · cases h

/-- Put a character in front of what was read. -/
def consChar (c : Char) : List Char × List Char → List Char × List Char
  | (read, rest) => (c :: read, rest)

/-- The rest of a basic string after its opening quote. -/
def basicText (text : List Char) : Option (List Char × List Char) :=
  match text with
  | [] => none
  | c :: rest =>
      if c = '\x22' then some ([], rest)
      else if c = '\x5c' then
        match _h : escape rest with
        | none => none
        | some (e, more) => consChar e <$> basicText more
      else if isPlain c then consChar c <$> basicText rest
      else none
termination_by text.length
decreasing_by
  · exact Nat.lt_succ_of_le (length_le_of_escape _h)
  · exact Nat.lt_succ_self _

/-- The rest of a literal string after its opening quote. -/
def literalText : List Char → Option (List Char × List Char)
  | [] => none
  | c :: rest =>
      if c = '\x27' then some ([], rest)
      else if isPlain c then consChar c <$> literalText rest
      else none

/-- What follows a backslash at the end of a line: the next thing that is
neither blank nor a line break. -/
def lineContinuation? (text : List Char) : Option (List Char) :=
  skipBlankLines <$> newline? (skipBlank text)

theorem length_lt_of_lineContinuation? {text rest : List Char}
    (h : lineContinuation? text = some rest) : rest.length < text.length := by
  simp only [lineContinuation?, Option.map_eq_map, Option.map_eq_some_iff] at h
  obtain ⟨line, hline, rfl⟩ := h
  have h₁ := length_skipBlankLines_le line
  have h₂ := length_lt_of_newline? hline
  have h₃ := length_skipBlank_le text
  omega

/-- The rest of a string between triple quotes.  One or two quotes in a row
belong to the string; three to five end it, and those before the last three
belong to it. -/
def multiText (quote : Char) (escapes : Bool) (text : List Char) :
    Option (List Char × List Char) :=
  match text with
  | [] => none
  | c :: rest =>
      if c = quote then
        let run := (rest.takeWhile (· = quote)).length + 1
        if run < 3 then do
          let (read, rest) ← multiText quote escapes (rest.dropWhile (· = quote))
          some (List.replicate run quote ++ read, rest)
        else if run < 6 then
          some (List.replicate (run - 3) quote, rest.dropWhile (· = quote))
        else none
      else if escapes && c = '\x5c' then
        match _h : lineContinuation? rest with
        | some more => multiText quote escapes more
        | none =>
            match _h : escape rest with
            | none => none
            | some (e, more) => consChar e <$> multiText quote escapes more
      else
        match _h : newline? (c :: rest) with
        | some more => consChar '\n' <$> multiText quote escapes more
        | none =>
            if isPlain c then consChar c <$> multiText quote escapes rest
            else none
termination_by text.length
decreasing_by
  · exact Nat.lt_succ_of_le (List.dropWhile_suffix (· = quote)).length_le
  · exact Nat.lt_succ_of_lt (length_lt_of_lineContinuation? _h)
  · exact Nat.lt_succ_of_le (length_le_of_escape _h)
  · exact length_lt_of_newline? _h
  · exact Nat.lt_succ_self _

/-- A line break right after the opening quotes does not count. -/
def skipNewline (text : List Char) : List Char :=
  (newline? text).getD text

/-- A string of any of the four forms. -/
def quoted : Reader (List Char)
  | '\x22' :: '\x22' :: '\x22' :: rest =>
      multiText '\x22' true (skipNewline rest)
  | '\x22' :: rest => basicText rest
  | '\x27' :: '\x27' :: '\x27' :: rest =>
      multiText '\x27' false (skipNewline rest)
  | '\x27' :: rest => literalText rest
  | _ => none

end Kademlia.Toml

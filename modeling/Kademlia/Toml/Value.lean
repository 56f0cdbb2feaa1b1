/-
Reading values: scalars, arrays over any number of lines, and tables between
braces on one line.
-/
import Kademlia.Toml.Table

namespace Kademlia.Toml

/-- What follows a word that has to come next. -/
def expectWord : List Char → List Char → Option (List Char)
  | [], text => some text
  | c :: word, text => do expectWord word (← expect c text)

/-- A number, a date or a time; the beginning tells which. -/
def numeric : Reader Value := fun text =>
  if startsDate text || startsTime text then
    (dateTime text).map fun (value, rest) => (.dateTime value, rest)
  else
    (number text).map fun (value, rest) => (.number value, rest)

/-- A value that holds no other values. -/
def scalar : Reader Value := fun text =>
  match text with
  | [] => none
  | first :: _ =>
      if first = '\x22' || first = '\x27' then
        (quoted text).map fun (value, rest) => (.string value, rest)
      else if first = 't' then
        (expectWord ['t', 'r', 'u', 'e'] text).map (.boolean true, ·)
      else if first = 'f' then
        (expectWord ['f', 'a', 'l', 's', 'e'] text).map (.boolean false, ·)
      else numeric text

/-- The rest of an array after its opening bracket.  A comma may stand behind
the last item. -/
def arrayItems (item : Reader Value) (text : List Char) :
    Option (List Value × List Char) :=
  match skipLines text with
  | ']' :: rest => some ([], rest)
  | start =>
      match item start with
      | none => none
      | some (value, rest) =>
          match skipLines rest with
          | ']' :: rest => some ([value], rest)
          | ',' :: more =>
              if more.length < text.length then do
                let (values, rest) ← arrayItems item more
                some (value :: values, rest)
              else none
          | _ => none
termination_by text.length

/-- A path of keys, an equals sign and a value. -/
def assignment (item : Reader Value) : Reader (KeyPath × Value) :=
  fun text => do
    let (path, rest) ← keyPath text
    let rest ← expect '=' rest
    let (value, rest) ← item (skipBlank rest)
    some ((path, value), rest)

/-- The rest of an inline table from one of its fields on. -/
def tableFields (item : Reader Value) (text : List Char) :
    Option (List (KeyPath × Value) × List Char) :=
  match assignment item text with
  | none => none
  | some (field, rest) =>
      match skipBlank rest with
      | '}' :: rest => some ([field], rest)
      | ',' :: more =>
          if more.length < text.length then do
            let (fields, rest) ← tableFields item more
            some (field :: fields, rest)
          else none
      | _ => none
termination_by text.length

/-- The rest of an inline table after its opening brace. -/
def inlineTable (item : Reader Value) : Reader Value := fun text =>
  match skipBlank text with
  | '}' :: rest => some (.table .inline [], rest)
  | _ => do
      let (fields, rest) ← tableFields item text
      let entries ← Entries.assignAll [] fields
      some (.table .inline entries, rest)

/-- A value in which arrays and inline tables nest at most `depth` deep. -/
def value : (depth : Nat) → Reader Value
  | 0 => scalar
  | depth + 1 => fun text =>
      match text with
      | '[' :: rest =>
          (arrayItems (value depth) rest).map fun (items, rest) =>
            (.array items, rest)
      | '{' :: rest => inlineTable (value depth) rest
      | _ => scalar text

end Kademlia.Toml

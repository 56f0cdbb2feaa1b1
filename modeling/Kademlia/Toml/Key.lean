/-
Keys and dotted paths of keys.  A key is a bare word or a quoted string on one
line.
-/
import Kademlia.Toml.Quoted

namespace Kademlia.Toml

abbrev Key := List Char

/-- The keys of a path, the outermost first. -/
abbrev KeyPath := List Key

/-- How many keys a path may have, and how deep values may nest. -/
abbrev depthLimit : Nat := 79

def isBare (c : Char) : Bool :=
  c.isAlphanum || c = '-' || c = '_'

def simpleKey : Reader Key
  | '\x22' :: rest => basicText rest
  | '\x27' :: rest => literalText rest
  | text =>
      let key := text.takeWhile isBare
      if key = [] then none else some (key, text.dropWhile isBare)

/-- One or more keys with dots between them.  Blanks around the keys do not
count. -/
def keys (text : List Char) : Option (KeyPath × List Char) :=
  match simpleKey (skipBlank text) with
  | none => none
  | some (key, rest) =>
      match skipBlank rest with
      | '.' :: more =>
          if more.length < text.length then do
            let (path, rest) ← keys more
            some (key :: path, rest)
          else none
      | rest => some ([key], rest)
termination_by text.length

/-- A path of keys that is not too long. -/
def keyPath : Reader KeyPath := fun text => do
  let (path, rest) ← keys text
  if path.length ≤ depthLimit then some (path, rest) else none

end Kademlia.Toml

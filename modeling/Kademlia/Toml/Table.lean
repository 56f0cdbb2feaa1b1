/-
Values and the tables they make up.  A table remembers how it came to be, since
that decides what may be added to it later: a table written inline is closed,
one that a longer path went through may still be opened under its own name, and
one made by dotted keys grows by dotted keys alone.
-/
import Kademlia.Toml.DateTime
import Kademlia.Toml.Key

namespace Kademlia.Toml

/-- How a table came to be. -/
inductive Origin where
  /-- Written between braces. -/
  | inline
  /-- Opened by a header of its own. -/
  | header
  /-- Passed through by the header of another table. -/
  | implied
  /-- Passed through by a dotted key. -/
  | dotted
deriving DecidableEq

inductive Value where
  | string (text : List Char)
  | number (value : Number)
  | boolean (value : Bool)
  | dateTime (value : DateTime)
  | array (items : List Value)
  | table (origin : Origin) (entries : List (Key × Value))
  /-- Tables that were opened one by one under the same header. -/
  | tables (elements : List (List (Key × Value)))

/-- The entries of a table in the order in which they were made. -/
abbrev Entries := List (Key × Value)

namespace Entries

def value? (entries : Entries) (key : Key) : Option Value :=
  (entries.find? fun entry => entry.1 = key).map Prod.snd

/-- Give a key a value, in its old place if it has one. -/
def set (entries : Entries) (key : Key) (value : Value) : Entries :=
  if (entries.value? key).isSome then
    entries.map fun entry => if entry.1 = key then (key, value) else entry
  else entries ++ [(key, value)]

/-- Give a path a value.  Every table on the way is made if it is not there;
one that is there must have been made by dotted keys, unless it is passed
through to a further table.  The last key must be new. -/
def assign (value : Value) : KeyPath → Entries → Option Entries
  | [], _ => none
  | [key], entries =>
      if (entries.value? key).isSome then none
      else some (entries ++ [(key, value)])
  | key :: next :: path, entries =>
      match entries.value? key with
      | none => do
          let inner ← assign value (next :: path) []
          some (entries.set key (.table .dotted inner))
      | some (.table .dotted inner) => do
          let inner ← assign value (next :: path) inner
          some (entries.set key (.table .dotted inner))
      | some (.table .implied inner) =>
          if path = [] then none
          else do
            let inner ← assign value (next :: path) inner
            some (entries.set key (.table .implied inner))
      | some (.tables elements) =>
          match path, elements.getLast? with
          | _ :: _, some last => do
              let last ← assign value (next :: path) last
              some (entries.set key (.tables (elements.dropLast ++ [last])))
          | _, _ => none
      | some _ => none

/-- Give several paths their values, one after another. -/
def assignAll (entries : Entries) (fields : List (KeyPath × Value)) :
    Option Entries :=
  fields.foldlM (fun entries field => assign field.2 field.1 entries) entries

/-- Change the table that a header's path leads to.  Tables on the way that are
not there are implied; of an array of tables the last one is meant. -/
def within (change : Key → Entries → Option Entries) :
    KeyPath → Entries → Option Entries
  | [], _ => none
  | [key], entries => change key entries
  | key :: next :: path, entries =>
      match entries.value? key with
      | none => do
          let inner ← within change (next :: path) []
          some (entries.set key (.table .implied inner))
      | some (.table .inline _) => none
      | some (.table origin inner) => do
          let inner ← within change (next :: path) inner
          some (entries.set key (.table origin inner))
      | some (.tables elements) =>
          match elements.getLast? with
          | some last => do
              let last ← within change (next :: path) last
              some (entries.set key (.tables (elements.dropLast ++ [last])))
          | none => none
      | some _ => none

/-- Open a table under a key and fill it.  Only an implied table may be there
already, and it keeps its entries. -/
def openTable (fields : List (KeyPath × Value)) (key : Key) (entries : Entries) :
    Option Entries :=
  match entries.value? key with
  | none => do
      let inner ← assignAll [] fields
      some (entries.set key (.table .header inner))
  | some (.table .implied inner) => do
      let inner ← assignAll inner fields
      some (entries.set key (.table .header inner))
  | some _ => none

/-- Add a table to the array of tables under a key and fill it. -/
def openElement (fields : List (KeyPath × Value)) (key : Key)
    (entries : Entries) : Option Entries :=
  match entries.value? key with
  | none => do
      let inner ← assignAll [] fields
      some (entries.set key (.tables [inner]))
  | some (.tables elements) => do
      let inner ← assignAll [] fields
      some (entries.set key (.tables (elements ++ [inner])))
  | some _ => none

end Entries

end Kademlia.Toml

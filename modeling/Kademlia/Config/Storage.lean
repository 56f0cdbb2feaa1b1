/-
Files by path.  A store knows its directories and the bytes of its files by
their absolute steps; opening a path walks it step by step, so that the first
step that cannot be taken decides the error.
-/
import Kademlia.Path

namespace Kademlia

/-- The names that lead from the root to a place. -/
abbrev Place := List (List Char)

structure FileStore where
  directories : List Place
  files : List (Place × List UInt8)
  /-- Where a path without a leading slash starts. -/
  workingDirectory : Place

/-- Why a file cannot be read. -/
inductive StorageError where
  | notFound
  | notDirectory
  | isDirectory
  | nameTooLong
  | nulInName
  | notText
deriving DecidableEq

def StorageError.message : StorageError → String
  | .notFound => "No such file or directory (os error 2)"
  | .notDirectory => "Not a directory (os error 20)"
  | .isDirectory => "Is a directory (os error 21)"
  | .nameTooLong => "File name too long (os error 36)"
  | .nulInName => "file name contained an unexpected NUL byte"
  | .notText => "stream did not contain valid UTF-8"

namespace FileStore

/-- How many bytes one step of a path may have. -/
abbrev nameLimit : Nat := 255

/-- How many bytes a path may have. -/
abbrev pathLimit : Nat := 4095

/-- The length of a text in bytes of UTF-8. -/
def byteLength (text : List Char) : Nat :=
  (String.ofList text).utf8ByteSize

def file? (store : FileStore) (place : Place) : Option (List UInt8) :=
  (store.files.find? fun file => file.1 = place).map Prod.snd

def isDirectory (store : FileStore) (place : Place) : Bool :=
  place = [] || store.directories.contains place

/-- Take one step of a path.  Even a step that leads nowhere can only be taken
from a directory. -/
def enter (store : FileStore) (place : Place) (segment : List Char) :
    Except StorageError Place :=
  if !store.isDirectory place then .error .notDirectory
  else if ¬ IsStep segment then .ok place
  else if segment = ['.', '.'] then .ok place.dropLast
  else if nameLimit < byteLength segment then .error .nameTooLong
  else
    let next := place ++ [segment]
    if store.isDirectory next || (store.file? next).isSome then .ok next
    else .error .notFound

/-- The place that a path leads to. -/
def resolve (store : FileStore) (path : List Char) : Except StorageError Place :=
  if path.contains '\x00' then .error .nulInName
  else if path = [] then .error .notFound
  else if pathLimit < byteLength path then .error .nameTooLong
  else
    let start := if path.head? = some '/' then [] else store.workingDirectory
    (segments path).foldlM store.enter start

def readBytes (store : FileStore) (path : List Char) :
    Except StorageError (List UInt8) := do
  let place ← store.resolve path
  match store.file? place with
  | some bytes => .ok bytes
  | none => .error .isDirectory

/-- The text of a file. -/
def readText (store : FileStore) (path : String) : Except StorageError String := do
  let bytes ← store.readBytes path.toList
  match String.fromUTF8? ⟨bytes.toArray⟩ with
  | some text => .ok text
  | none => .error .notText

end FileStore

end Kademlia

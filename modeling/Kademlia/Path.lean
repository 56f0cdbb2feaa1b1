/-
Slash-separated paths as texts: the pieces between the slashes, and which of
them name a step of the path.
-/

namespace Kademlia

/-- The pieces of a text between its slashes, empty ones included. -/
def segments : List Char → List (List Char)
  | [] => [[]]
  | c :: rest =>
      if c = '/' then [] :: segments rest
      else
        match segments rest with
        | [] => [[c]]
        | first :: more => (c :: first) :: more

/-- An empty piece and a single dot lead nowhere. -/
def IsStep (segment : List Char) : Prop :=
  segment ≠ [] ∧ segment ≠ ['.']

instance (segment : List Char) : Decidable (IsStep segment) :=
  inferInstanceAs (Decidable (_ ∧ _))

/-- The pieces that lead somewhere, in order. -/
def pathSteps (text : List Char) : List (List Char) :=
  (segments text).filter (fun segment => IsStep segment)

end Kademlia

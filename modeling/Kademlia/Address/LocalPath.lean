/-
Paths of local sockets.  A path keeps the text it was given, but two paths are
the same when they lead through the same parts.
-/
import Kademlia.Path

namespace Kademlia

structure LocalPath where
  text : String

namespace LocalPath

/-- One part of a path. -/
inductive Part where
  | root
  | here
  | parent
  | name (text : List Char)
deriving DecidableEq

def Part.ofSegment (segment : List Char) : Part :=
  if segment = ['.', '.'] then parent else name segment

/-- The part that a path starts from.  A leading dot counts only where there is
no root. -/
def start (text : List Char) : List Part :=
  if text.head? = some '/' then [.root]
  else if (segments text).head? = some ['.'] then [.here]
  else []

/-- The parts of a path.  Repeated slashes, slashes at the end and dots after
the start do not count; a double dot does. -/
def parts (path : LocalPath) : List Part :=
  start path.text.toList ++ (pathSteps path.text.toList).map Part.ofSegment

instance : BEq LocalPath where
  beq p q := p.parts == q.parts

end LocalPath

end Kademlia

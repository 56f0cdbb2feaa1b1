/-
What a bucket reports of its work: looked-up peers, refused newcomers, and
members come and gone.
-/
import Kademlia.Bucket.Basic

namespace Kademlia

/-- How much an event matters. -/
inductive Level where
  | trace
  | debug
  | warn
deriving DecidableEq

def Level.label : Level → String
  | .trace => "TRACE"
  | .debug => "DEBUG"
  | .warn => "WARN"

inductive Event where
  | lookup (id : NodeId)
  | lookupByAddress (address : NetAddress)
  | duplicateRejected (id : NodeId)
  | fullRejected (id : NodeId)
  | addressLimitReached (ip : Ip) (id : NodeId)
  /-- A peer became a member, and then there were `count`. -/
  | added (contact : Contact) (count : Nat)
  | removed (contact : Contact)
  /-- A member was gone between its lookup and its move to the end. -/
  | vanished (id : NodeId)

namespace Event

def level : Event → Level
  | lookup _ | lookupByAddress _ => .trace
  | addressLimitReached _ _ => .warn
  | _ => .debug

/-- What an event says, behind the name of the component. -/
def body : Event → String
  | lookup id => s!"Looking up peer {id.toHex}"
  | lookupByAddress address => s!"Looking up peer by {address.text}"
  | duplicateRejected id => s!"Rejected duplicate peer {id.toHex}"
  | fullRejected id => s!"Bucket full, rejected peer {id.toHex}"
  | addressLimitReached ip id =>
      s!"Per-IP limit reached for {ip.text}, rejected peer {id.toHex}"
  | added contact count => s!"Added peer {contact.text} ({count} in bucket)"
  | removed contact => s!"Removed peer {contact.text}"
  | vanished id => s!"Peer {id.toHex} vanished before recency move"

def message (event : Event) : String :=
  "[kad-router] " ++ event.body

/-- The event that reports a refused newcomer. -/
def ofRefusal (handle : Handle) : BucketError → List Event
  | .duplicate _ => [duplicateRejected handle.id]
  | .full _ => [fullRejected handle.id]
  | .tooManyFrom _ _ => [addressLimitReached handle.ip handle.id]
  | _ => []

/-- The event that reports a lookup by address.  An address of a kind that no
peer is looked up by is refused before that. -/
def ofAddress : NetAddress → List Event
  | .udp endpoint => [lookupByAddress (.udp endpoint)]
  | .tcp endpoint => [lookupByAddress (.tcp endpoint)]
  | _ => []

end Event

end Kademlia

/-
What is known of a peer's liveness: two flags, when it was last heard from, and
how long it had been known by then.  Instants are counted in nanoseconds from
an arbitrary zero and may be negative.  They have no bounds: that a contact so
late that no clock could name its expiry stops the program is left out.
-/

namespace Kademlia

/-- A moment, in nanoseconds. -/
abbrev Instant := Int

abbrev nanosPerSecond : Nat := 1000000000

abbrev secondsPerHour : Nat := 3600

/-- How long a contact keeps a peer from expiring. -/
def peerTtl : Nat :=
  secondsPerHour * nanosPerSecond

/-- How long a peer has been known: under an hour, under two, or longer. -/
inductive PeerKind where
  | fresh
  | established
  | stable
deriving DecidableEq

namespace PeerKind

def rank : PeerKind → Nat
  | fresh => 0
  | established => 1
  | stable => 2

instance : Ord PeerKind where
  compare a b := compare a.rank b.rank

/-- The kind for an age in nanoseconds.  Only whole hours of whole seconds
count. -/
def ofAge (age : Nat) : PeerKind :=
  match age / nanosPerSecond / secondsPerHour with
  | 0 => fresh
  | 1 => established
  | _ => stable

end PeerKind

structure Liveness where
  /-- The peer has answered from the address it claims. -/
  verified : Bool
  alive : Bool
  createdAt : Instant
  lastSeen : Option Instant
  expiresAt : Option Instant
  kind : PeerKind
deriving DecidableEq

/-- A change that the owner of a peer can make to its liveness. -/
inductive Change where
  | setAlive (alive : Bool)
  | setVerified (verified : Bool)
  | refreshAt (now : Instant)
deriving DecidableEq

namespace Liveness

/-- A peer not heard from yet. -/
def unseen (createdAt : Instant) (verified alive : Bool) : Liveness where
  verified := verified
  alive := alive
  createdAt := createdAt
  lastSeen := none
  expiresAt := none
  kind := .fresh

/-- Record a contact.  A contact dated before the peer was created counts as one
at age zero. -/
def refresh (liveness : Liveness) (now : Instant) : Liveness :=
  { liveness with
    alive := true
    lastSeen := some now
    expiresAt := some (now + peerTtl)
    kind := .ofAge (now - liveness.createdAt).toNat }

def apply (liveness : Liveness) : Change → Liveness
  | .setAlive alive => { liveness with alive }
  | .setVerified verified => { liveness with verified }
  | .refreshAt now => liveness.refresh now

/-- A peer never heard from counts as expired. -/
def isExpired (liveness : Liveness) (now : Instant) : Bool :=
  match liveness.expiresAt with
  | none => true
  | some deadline => deadline ≤ now

/-- Only verified peers that are alive may be handed out to others. -/
def isCandidate (liveness : Liveness) : Bool :=
  liveness.verified && liveness.alive

end Liveness

end Kademlia

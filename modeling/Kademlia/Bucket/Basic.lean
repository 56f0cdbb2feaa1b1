/-
A bucket of peers at one range of distances.  Members stand in the order in
which they were last admitted or heard from, the oldest first.  A full bucket
refuses newcomers instead of dropping a member, and only so many members may
share an address.  That the machine has the memory it is asked for is taken for
granted.
-/
import Kademlia.Bucket.Error
import Kademlia.Config.Error
import Kademlia.Ranking

namespace Kademlia

structure Bucket where
  limits : Limits
  /-- The oldest first. -/
  members : List Handle
  /-- When a member was last admitted, removed or moved. -/
  lastUpdated : Instant
  entropy : EntropySource
  /-- How often the source has been read. -/
  reads : Nat

/-- How far a bucket is filled. -/
inductive Occupancy where
  | empty
  | partly
  | full
deriving DecidableEq

namespace Bucket

/-- The most members that room can be set aside for: an allocation has less than
`2 ^ 63` bytes, and a handle takes eight. -/
def maxCapacity : Nat :=
  9223372036854775807 / 8

/-- An empty bucket. -/
def start (limits : Limits) (entropy : EntropySource) (now : Instant) : Bucket :=
  ⟨limits, [], now, entropy, 0⟩

/-- Make an empty bucket under limits that need no check.  Room for all members
is set aside at once. -/
def build (limits : Limits) (entropy : EntropySource) (now : Instant) :
    Except BuildError Bucket :=
  if limits.size ≤ maxCapacity then .ok (start limits entropy now)
  else .error .capacityOverflow

/-- An empty bucket under the standard limits. -/
def standard (entropy : EntropySource) (now : Instant) : Bucket :=
  start .standard entropy now

theorem build_standard (entropy : EntropySource) (now : Instant) :
    build .standard entropy now = .ok (standard entropy now) :=
  if_pos (by decide)

/-- Make an empty bucket, if the limits are usable. -/
def create (limits : Limits) (entropy : EntropySource) (now : Instant) :
    Except BuildError Bucket :=
  match limits.validate with
  | .ok () => build limits entropy now
  | .error cause => .error (.refused (.outOfRange cause))

/-- Make an empty bucket under the limits that a provider gives. -/
def ofProvider {α : Type} [LimitsProvider α] (provider : α)
    (entropy : EntropySource) (now : Instant) : Except BuildError Bucket :=
  create (LimitsProvider.limits provider) entropy now

/-! What can be seen of a bucket. -/

def count (bucket : Bucket) : Nat :=
  bucket.members.length

/-- How many more peers fit by number. -/
def remaining (bucket : Bucket) : Nat :=
  bucket.limits.size - bucket.count

def isEmpty (bucket : Bucket) : Bool :=
  bucket.count == 0

def isFull (bucket : Bucket) : Bool :=
  bucket.count == bucket.limits.size

def occupancy (bucket : Bucket) : Occupancy :=
  if bucket.count = 0 then .empty
  else if bucket.limits.size ≤ bucket.count then .full
  else .partly

/-- How many members have the address. -/
def countFor (bucket : Bucket) (ip : Ip) : Nat :=
  bucket.members.countP fun handle => handle.ip = ip

def oldest? (bucket : Bucket) : Option Handle :=
  bucket.members.head?

/-- The member with an identifier. -/
def find? (bucket : Bucket) (id : NodeId) : Option Handle :=
  bucket.members.find? fun handle => handle.id = id

def get (bucket : Bucket) (id : NodeId) : Except BucketError Handle :=
  match bucket.find? id with
  | some handle => .ok handle
  | none => .error .notFound

def contains (bucket : Bucket) (id : NodeId) : Bool :=
  (bucket.find? id).isSome

/-- The oldest member at an endpoint, by the port of one transport. -/
def getAt (bucket : Bucket) (port : Contact → UInt16) (endpoint : Endpoint) :
    Except BucketError Handle :=
  let found := bucket.members.find? fun handle =>
    handle.ip = endpoint.ip ∧ port handle.contact = endpoint.port
  match found with
  | some handle => .ok handle
  | none => .error .notFound

/-- The oldest member that a packet from an address can have come from. -/
def getByAddress (bucket : Bucket) : NetAddress → Except BucketError Handle
  | .udp endpoint => bucket.getAt Contact.udpPort endpoint
  | .tcp endpoint => bucket.getAt Contact.tcpPort endpoint
  | address => .error (.unsupportedAddress address.kind)

/-- The closest members that may be handed out. -/
def closest (bucket : Bucket) (roster : Roster) (target : NodeId) (max : Nat) :
    List Handle :=
  closestCandidates roster target max bucket.members

/-! Operations that change a bucket. -/

/-- What a newcomer finds among the members. -/
structure Survey where
  /-- A member has the identifier of the newcomer. -/
  stored : Bool
  /-- How many members were passed that share its address. -/
  sharing : Nat
deriving DecidableEq

/-- Walk from the oldest member.  The walk ends at the identifier of the
newcomer, so the members behind it are not counted. -/
def survey (newcomer : Handle) : List Handle → Survey
  | [] => ⟨false, 0⟩
  | handle :: rest =>
      if handle.id = newcomer.id then ⟨true, 0⟩
      else
        let further := survey newcomer rest
        if handle.ip = newcomer.ip then ⟨further.stored, further.sharing + 1⟩
        else further

/-- Admit a peer as the newest member.  A peer already stored is reported before
a lack of room, and that before too many peers at its address. -/
def add (bucket : Bucket) (handle : Handle) (now : Instant) :
    Except BucketError Bucket :=
  let found := survey handle bucket.members
  if found.stored then .error (.duplicate handle.id)
  else if bucket.limits.size ≤ bucket.count then
    .error (.full bucket.limits.size)
  else if bucket.limits.perIp ≤ found.sharing then
    .error (.tooManyFrom handle.ip bucket.limits.perIp)
  else
    .ok { bucket with members := bucket.members ++ [handle], lastUpdated := now }

/-- The members without the one that has an identifier. -/
def without (bucket : Bucket) (id : NodeId) : List Handle :=
  bucket.members.eraseP fun handle => handle.id = id

/-- Remove the member with an identifier. -/
def remove (bucket : Bucket) (id : NodeId) (now : Instant) :
    Except BucketError (Handle × Bucket) :=
  match bucket.find? id with
  | some handle =>
      .ok (handle, { bucket with members := bucket.without id, lastUpdated := now })
  | none => .error .notFound

/-- Make the member with an identifier the newest. -/
def moveToEnd (bucket : Bucket) (id : NodeId) (now : Instant) :
    Except BucketError Bucket :=
  match bucket.find? id with
  | some handle =>
      .ok { bucket with
        members := bucket.without id ++ [handle]
        lastUpdated := now }
  | none => .error .notFound

/-- The member that a draw falls on.  The remainder by the count is a position
unless there are no members. -/
def drawn (bucket : Bucket) (draw : Nat) : Except BucketError Handle :=
  match bucket.members[draw % bucket.count]? with
  | some handle => .ok handle
  | none => .error .empty

/-- Pick a member at random.  The source is read first, so a failed read is
reported even by an empty bucket, and every read counts. -/
def pick (bucket : Bucket) : Except BucketError Handle × Bucket :=
  let result :=
    match bucket.entropy.read bucket.reads 8 with
    | .ok bytes => bucket.drawn bytes.toNat
    | .error cause => .error (.noEntropy cause)
  (result, { bucket with reads := bucket.reads + 1 })

end Bucket

end Kademlia

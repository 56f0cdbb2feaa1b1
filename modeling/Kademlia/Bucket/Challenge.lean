/-
How a newcomer may take the place of a silent peer.  When a bucket is full, its
oldest member is challenged: one that is alive is moved to the end and the
newcomer is dropped, one that is not makes room.
-/
import Kademlia.Bucket.Session

namespace Kademlia

/-- A candidate for a bucket and the readings of the clock while it is offered:
at the first attempt, at the challenge of the oldest member, and at the second
attempt. -/
structure Offer where
  candidate : Handle
  offeredAt : Instant
  challengedAt : Instant
  retriedAt : Instant

/-- Go on from a turn; the later answer counts. -/
def Turn.andThen (turn : Turn) (next : Session → Turn) : Turn :=
  let later := next turn.after
  ⟨later.answer, later.after, turn.events ++ later.events⟩

/-- What befalls a bucket under a flood: a candidate is offered, or somebody
changes a shared peer in between. -/
inductive Visit where
  | offer (offer : Offer)
  | change (slot : Nat) (change : Change)

/-- The candidate that a visit offers. -/
def Visit.candidate? : Visit → Option Handle
  | .offer made => some made.candidate
  | .change _ _ => none

/-- The visit declares the peer of a handle dead. -/
def Visit.clears (handle : Handle) : Visit → Bool
  | .change slot (.setAlive false) => slot == handle.slot
  | _ => false

namespace Session

/-- Offer a candidate to a bucket.  The answer is that of the last attempt to
admit it. -/
def challenge (session : Session) (offer : Offer) : Turn :=
  let first := session.step offer.offeredAt (.add offer.candidate)
  let retry (session : Session) : Turn :=
    session.step offer.retriedAt (.add offer.candidate)
  match first.answer, first.after.bucket.oldest? with
  | .refused (.full _), some oldest =>
      if (first.after.roster oldest.slot).alive then
        { first.andThen (·.step offer.challengedAt (.touch oldest.id)) with
          answer := first.answer }
      else
        (first.andThen (·.step offer.challengedAt (.remove oldest))).andThen retry
  | .refused (.full _), none => first.andThen retry
  | _, _ => first

/-- The candidates of a list of visits with their answers, and the session after
them. -/
def flood (session : Session) : List Visit → List (Handle × Answer) × Session
  | [] => ([], session)
  | .offer offer :: rest =>
      let turn := session.challenge offer
      let (answers, final) := turn.after.flood rest
      ((offer.candidate, turn.answer) :: answers, final)
  | .change slot change :: rest => (session.change slot change).after.flood rest

end Session

end Kademlia

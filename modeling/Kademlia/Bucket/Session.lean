/-
A bucket at work.  A session is a bucket together with the liveness of the
peers that may be in it; each action is answered, and the events it reports are
kept beside the answer.  The clock is read once for an action and is an
argument of the step.  A touch reads it for the peer and, right after, for the
bucket; the two readings are taken to be the same.
-/
import Kademlia.Bucket.Event

namespace Kademlia

structure Session where
  bucket : Bucket
  roster : Roster

inductive Action where
  | add (handle : Handle)
  | remove (handle : Handle)
  | get (id : NodeId)
  | getByAddress (address : NetAddress)
  | pick
  | oldest
  | contains (id : NodeId)
  | countFor (ip : Ip)
  | limits
  | members
  | closest (target : NodeId) (max : Nat)
  /-- Record that a member was heard from. -/
  | touch (id : NodeId)
  /-- Change a shared peer behind the bucket's back. -/
  | change (slot : Nat) (change : Change)
  /-- Record, behind the bucket's back, that a shared peer was heard from. -/
  | refresh (slot : Nat)
  | inspect (slot : Nat)
  | isExpired (slot : Nat) (moment : Instant)

inductive Answer where
  | done
  | refused (error : BucketError)
  | peer (handle : Handle)
  | peer? (handle : Option Handle)
  | peers (handles : List Handle)
  | flag (value : Bool)
  | number (value : Nat)
  | limits (limits : Limits)
  | liveness (liveness : Liveness)
deriving DecidableEq

/-- The answer of one action, the session after it, and what it reported. -/
structure Turn where
  answer : Answer
  after : Session
  events : List Event

namespace Answer

/-- The answer to a lookup. -/
def ofLookup : Except BucketError Handle → Answer
  | .ok handle => .peer handle
  | .error error => .refused error

end Answer

namespace Session

/-- An answer that leaves everything as it was. -/
def quietly (session : Session) (answer : Answer) : Turn :=
  ⟨answer, session, []⟩

/-- Change the liveness of one slot and answer with it. -/
def change (session : Session) (slot : Nat) (change : Change) : Turn :=
  let roster := session.roster.update slot change
  ⟨.liveness (roster slot), { session with roster }, []⟩

def step (session : Session) (now : Instant) : Action → Turn
  | .add handle =>
      match session.bucket.add handle now with
      | .ok bucket =>
          ⟨.done, { session with bucket }, [.added handle.contact bucket.count]⟩
      | .error error =>
          ⟨.refused error, session, Event.ofRefusal handle error⟩
  | .remove handle =>
      match session.bucket.remove handle.id now with
      | .ok (removed, bucket) =>
          ⟨.peer removed, { session with bucket }, [.removed removed.contact]⟩
      | .error error => session.quietly (.refused error)
  | .get id =>
      ⟨.ofLookup (session.bucket.get id), session, [.lookup id]⟩
  | .getByAddress address =>
      ⟨.ofLookup (session.bucket.getByAddress address), session,
        Event.ofAddress address⟩
  | .pick =>
      let (result, bucket) := session.bucket.pick
      ⟨.ofLookup result, { session with bucket }, []⟩
  | .oldest => session.quietly (.peer? session.bucket.oldest?)
  | .contains id =>
      ⟨.flag (session.bucket.contains id), session, [.lookup id]⟩
  | .countFor ip => session.quietly (.number (session.bucket.countFor ip))
  | .limits => session.quietly (.limits session.bucket.limits)
  | .members => session.quietly (.peers session.bucket.members)
  | .closest target max =>
      session.quietly (.peers (session.bucket.closest session.roster target max))
  | .touch id =>
      match session.bucket.get id with
      | .ok handle =>
          let roster := session.roster.update handle.slot (.refreshAt now)
          match session.bucket.moveToEnd handle.id now with
          | .ok bucket => ⟨.done, ⟨bucket, roster⟩, [.lookup id]⟩
          | .error error =>
              ⟨.refused error, { session with roster },
                [.lookup id, .vanished handle.id]⟩
      | .error error => ⟨.refused error, session, [.lookup id]⟩
  | .change slot change => session.change slot change
  | .refresh slot => session.change slot (.refreshAt now)
  | .inspect slot => session.quietly (.liveness (session.roster slot))
  | .isExpired slot moment =>
      session.quietly (.flag ((session.roster slot).isExpired moment))

/-- The turns of a list of actions, each with its reading of the clock. -/
def run (session : Session) : List (Instant × Action) → List Turn
  | [] => []
  | (now, action) :: rest =>
      let turn := session.step now action
      turn :: turn.after.run rest

/-- The session after a list of actions. -/
def final (session : Session) : List (Instant × Action) → Session
  | [] => session
  | (now, action) :: rest => (session.step now action).after.final rest

end Session

end Kademlia

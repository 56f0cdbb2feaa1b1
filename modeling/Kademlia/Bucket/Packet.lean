/-
Packets that come in.  The sender of a packet is looked up by the address that the
packet came from, and a member that is found is recorded as heard from.
-/
import Kademlia.Bucket.Challenge

namespace Kademlia

/-- The address is one of a peer: its internet address with its port for the
transport. -/
def Contact.IsAt (contact : Contact) : NetAddress → Prop
  | .udp endpoint => contact.ip = endpoint.ip ∧ contact.udpPort = endpoint.port
  | .tcp endpoint => contact.ip = endpoint.ip ∧ contact.tcpPort = endpoint.port
  | _ => False

instance (contact : Contact) : DecidablePred contact.IsAt
  | .udp _ | .tcp _ => inferInstanceAs (Decidable (_ ∧ _))
  | .bare _ | .unix _ => inferInstanceAs (Decidable False)

/-- The members that an address belongs to, the oldest first. -/
def Bucket.membersAt (bucket : Bucket) (address : NetAddress) : List Handle :=
  bucket.members.filter fun handle => handle.contact.IsAt address

/-- The readings of the clock when the sender of a packet is looked up and when it
is recorded as heard from. -/
structure Arrival where
  lookedUpAt : Instant
  heardAt : Instant

namespace Session

/-- Look up the sender of a packet and record that it was heard from.  The answer is
that of the lookup. -/
def receive (session : Session) (address : NetAddress) (arrival : Arrival) : Turn :=
  let lookup := session.step arrival.lookedUpAt (.getByAddress address)
  match lookup.answer with
  | .peer sender =>
      { lookup.andThen (·.step arrival.heardAt (.touch sender.id)) with
        answer := lookup.answer }
  | _ => lookup

/-- The answers to a list of packets from one address, and the session after
them. -/
def receiveAll (session : Session) (address : NetAddress) :
    List Arrival → List Answer × Session
  | [] => ([], session)
  | arrival :: rest =>
      let turn := session.receive address arrival
      let (answers, final) := turn.after.receiveAll address rest
      (turn.answer :: answers, final)

end Session

end Kademlia

/-
Peers: where a node can be reached, which never changes, and what is known of
its liveness, which does.  Peers with one identifier are one peer.
-/
import Kademlia.Address.Endpoint
import Kademlia.NodeId.Hex
import Kademlia.Peer.Liveness

namespace Kademlia

/-- Where a node can be reached. -/
structure Contact where
  id : NodeId
  ip : Ip
  udpPort : UInt16
  tcpPort : UInt16
deriving DecidableEq

namespace Contact

def udpEndpoint (contact : Contact) : Endpoint :=
  .ofIp contact.ip contact.udpPort 0 0

def tcpEndpoint (contact : Contact) : Endpoint :=
  .ofIp contact.ip contact.tcpPort 0 0

def text (contact : Contact) : String :=
  s!"{contact.id.toHex}@{contact.udpEndpoint.text}"

end Contact

structure Peer where
  contact : Contact
  liveness : Liveness

namespace Peer

instance : BEq Peer where
  beq p q := p.contact.id == q.contact.id

def apply (peer : Peer) (change : Change) : Peer :=
  { peer with liveness := peer.liveness.apply change }

/-- Everything about a peer but its history, for inspection. -/
def dump (peer : Peer) : String :=
  "Peer \x7b id: " ++ peer.contact.id.dump ++
  ", ip: " ++ peer.contact.ip.text ++
  ", udp_port: " ++ toString peer.contact.udpPort.toNat ++
  ", tcp_port: " ++ toString peer.contact.tcpPort.toNat ++
  ", ip_verified: " ++ toString peer.liveness.verified ++
  ", alive: " ++ toString peer.liveness.alive ++ " \x7d"

/-- A verified live peer for trials.  Its TCP port is ten below its UDP port,
or zero. -/
def sampleAt (id : UInt8) (ip : Ip) (udpPort : UInt16) : Peer where
  contact :=
    { id := .ofNat id.toNat
      ip := ip
      udpPort := udpPort
      tcpPort := if udpPort < 10 then 0 else udpPort - 10 }
  liveness := .unseen 0 true true

/-- Sample peers of different identifiers are at different addresses. -/
def sample (id : UInt8) : Peer :=
  sampleAt id (.v4 ⟨[10, 0, id, 1], rfl⟩) 4672

end Peer

end Kademlia

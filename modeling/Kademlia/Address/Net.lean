/-
Addresses that a peer can be asked for by: an endpoint of either transport, a
bare internet address, or a local socket.
-/
import Kademlia.Address.Endpoint
import Kademlia.Address.LocalPath

namespace Kademlia

inductive NetAddress where
  | udp (endpoint : Endpoint)
  | tcp (endpoint : Endpoint)
  | bare (ip : Ip)
  | unix (path : LocalPath)
deriving BEq

namespace NetAddress

/-- The short name of the kind of address. -/
def kind : NetAddress → String
  | udp _ => "udp"
  | tcp _ => "tcp"
  | bare _ => "ip"
  | unix _ => "unix"

def ip? : NetAddress → Option Ip
  | udp endpoint | tcp endpoint => some endpoint.ip
  | bare ip => some ip
  | unix _ => none

/-- What stands behind the name of the kind. -/
def locator : NetAddress → String
  | udp endpoint | tcp endpoint => endpoint.text
  | bare ip => ip.text
  | unix path => path.text

def text (address : NetAddress) : String :=
  s!"{address.kind}://{address.locator}"

end NetAddress

end Kademlia

/-
Transport endpoints: an address with a port.  An IPv6 endpoint also has a flow
label and a scope, which tell endpoints apart but are no part of the address.
-/
import Kademlia.Address.Ip

namespace Kademlia

inductive Endpoint where
  | v4 (bytes : Octets 4) (port : UInt16)
  | v6 (bytes : Octets 16) (port : UInt16) (flow scope : UInt32)
deriving DecidableEq

namespace Endpoint

/-- The endpoint at an address.  Only IPv6 keeps the flow label and the scope. -/
def ofIp (ip : Ip) (port : UInt16) (flow scope : UInt32) : Endpoint :=
  match ip with
  | .v4 bytes => v4 bytes port
  | .v6 bytes => v6 bytes port flow scope

def ip : Endpoint → Ip
  | v4 bytes _ => .v4 bytes
  | v6 bytes _ _ _ => .v6 bytes

def port : Endpoint → UInt16
  | v4 _ port => port
  | v6 _ port _ _ => port

/-- An IPv6 address is bracketed.  A scope is written if it is not zero, a flow
label never. -/
def text : Endpoint → String
  | v4 bytes port => s!"{(Ip.v4 bytes).text}:{port.toNat}"
  | v6 bytes port _ scope =>
      let zone := if scope = 0 then "" else s!"%{scope.toNat}"
      s!"[{(Ip.v6 bytes).text}{zone}]:{port.toNat}"

@[simp] theorem ip_ofIp (ip : Ip) (port : UInt16) (flow scope : UInt32) :
    (ofIp ip port flow scope).ip = ip := by
  cases ip <;> rfl

@[simp] theorem port_ofIp (ip : Ip) (port : UInt16) (flow scope : UInt32) :
    (ofIp ip port flow scope).port = port := by
  cases ip <;> rfl

end Endpoint

end Kademlia

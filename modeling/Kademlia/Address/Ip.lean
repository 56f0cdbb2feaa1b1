/-
Internet addresses of both families and their text.  IPv6 addresses are written
in the shortest recommended form: lower-case groups without leading zeros, the
first longest run of two or more zero groups as a double colon, and a dotted
quad behind `::ffff:` for an address that carries an IPv4 one.
-/
import Kademlia.Octets

namespace Kademlia

/-- An address of either family.  One that carries an IPv4 address inside an
IPv6 one is not the IPv4 address. -/
inductive Ip where
  | v4 (bytes : Octets 4)
  | v6 (bytes : Octets 16)
deriving DecidableEq

namespace Ip

/-- Four bytes are an IPv4 address and sixteen an IPv6 one. -/
def ofBytes? (bytes : List UInt8) : Option Ip :=
  v4 <$> Octets.ofList? 4 bytes <|> v6 <$> Octets.ofList? 16 bytes

def dottedQuad (bytes : List UInt8) : String :=
  ".".intercalate (bytes.map fun byte => toString byte.toNat)

/-- The 16-bit groups of an address. -/
def groups : List UInt8 → List Nat
  | high :: low :: rest => (256 * high.toNat + low.toNat) :: groups rest
  | _ => []

/-- Where the first of the longest runs of zeros starts and how long it is. -/
def longestZeroRun : List Nat → Nat × Nat
  | [] => (0, 0)
  | group :: rest =>
      let here := ((group :: rest).takeWhile (· == 0)).length
      let (start, length) := longestZeroRun rest
      if length ≤ here then (0, here) else (start + 1, length)

def groupsText (groups : List Nat) : String :=
  ":".intercalate (groups.map fun group => String.ofList (Nat.toDigits 16 group))

def v6Text (bytes : List UInt8) : String :=
  let parts := groups bytes
  if parts.take 6 = [0, 0, 0, 0, 0, 0xffff] then
    "::ffff:" ++ dottedQuad (bytes.drop 12)
  else
    let (start, length) := longestZeroRun parts
    if length < 2 then groupsText parts
    else
      groupsText (parts.take start) ++ "::" ++
        groupsText (parts.drop (start + length))

def text : Ip → String
  | v4 bytes => dottedQuad bytes.toList
  | v6 bytes => v6Text bytes.toList

end Ip

end Kademlia

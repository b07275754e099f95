import Mathlib.Data.List.AList

/-!
# Source addresses

The bucket of a peer's address, by which the limiters of the relay count: an IPv4 address
by itself, also where it comes mapped into IPv6, and the /64 network of an IPv6 address.
-/
namespace Chute

/-- The text of `_peer_ip`, as far as `ipaddress.ip_address` can read it. -/
inductive PeerIp
  | ipv4 (address : BitVec 32)
  | ipv6 (address : BitVec 128) (scope : Option String)
  | unreadable (text : String)
  deriving DecidableEq, Repr

/-- What `_source_ip_bucket` returns, before it is written as a text. -/
inductive SourceBucket
  | ipv4 (address : BitVec 32)
  | ipv6 (address : BitVec 128) (scope : Option String)
  /-- The /64 network with these leading bits. -/
  | ipv6Network (leading : BitVec 64)
  | unreadable (text : String)
  deriving DecidableEq, Repr

namespace PeerIp

/-- `ipv4_mapped` -/
def ipv4Mapped (address : BitVec 128) : Option (BitVec 32) :=
  if address.extractLsb' 32 96 = 0xFFFF then some (address.extractLsb' 0 32) else none

/-- The address, out of its IPv6 mapping. -/
def unmapped : PeerIp → PeerIp
  | .ipv6 address scope =>
    match ipv4Mapped address with
    | some mapped => .ipv4 mapped
    | none => .ipv6 address scope
  | ip => ip

/-- `is_loopback` -/
def isLoopback : PeerIp → Bool
  | .ipv4 address => address.extractLsb' 24 8 == 127
  | .ipv6 address _ => address == 1
  | .unreadable _ => false

end PeerIp

/-- `_source_ip_bucket` -/
def sourceIpBucket (ip : Option PeerIp) (groupIpv6By64 exemptLoopback : Bool) :
    Option SourceBucket :=
  ip.bind fun ip =>
    let parsed := ip.unmapped
    if exemptLoopback && parsed.isLoopback then none
    else some (match parsed with
      | .ipv4 address => .ipv4 address
      | .ipv6 address scope =>
        if groupIpv6By64 then .ipv6Network (address.extractLsb' 64 64) else .ipv6 address scope
      | .unreadable text => .unreadable text)

end Chute

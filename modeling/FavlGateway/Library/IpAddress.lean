/-
  IP addresses and networks, as Python's `ipaddress` has them.

  An address is a word of 32 or of 128 bits; a version 6 address may also carry a scope, which its
  text shows and membership ignores.  The embeddings of version 4 in version 6 are read off the bits.
-/
import FavlGateway.Library.Json

namespace FavlGateway.Library

inductive IpAddress where
  | v4 (bits : BitVec 32)
  | v6 (bits : BitVec 128) (scope : Option PyStr)
  deriving DecidableEq

/-- A network: its address and how many leading bits it fixes. -/
inductive IpNetwork where
  | v4 (address : BitVec 32) (length : Nat)
  | v6 (address : BitVec 128) (length : Nat)

namespace IpNetwork

/-- The netmask. -/
def mask (width length : Nat) : BitVec width := BitVec.allOnes width <<< (width - length)

/-- `ip.version == network.version and ip in network` -/
def contains : IpNetwork → IpAddress → Bool
  | .v4 address length, .v4 bits => bits &&& mask 32 length == address
  | .v6 address length, .v6 bits _ => bits &&& mask 128 length == address
  | _, _ => false

/-- The network of a dotted address. -/
def quad (a b c d length : Nat) : IpNetwork :=
  .v4 (BitVec.ofNat 8 a ++ BitVec.ofNat 8 b ++ BitVec.ofNat 8 c ++ BitVec.ofNat 8 d) length

end IpNetwork

namespace IpAddress

/-- `ip.ipv4_mapped`, of `::ffff:0:0/96` -/
def ipv4Mapped (bits : BitVec 128) : Option (BitVec 32) :=
  if bits >>> 32 = 0xFFFF then some (bits.setWidth 32) else none

/-- `ip.sixtofour`, of `2002::/16` -/
def sixtofour (bits : BitVec 128) : Option (BitVec 32) :=
  if bits >>> 112 = 0x2002 then some ((bits >>> 80).setWidth 32) else none

/-- The client of `ip.teredo`, of `2001::/32`: stored inverted. -/
def teredoClient (bits : BitVec 128) : Option (BitVec 32) :=
  if bits >>> 96 = 0x20010000 then some ((~~~bits).setWidth 32) else none

end IpAddress

end FavlGateway.Library

import BitcoinPeers.Peer

/-!
Contract: the rust-bitcoin message values that the connection code reads and
writes.

Owns the version message with all its fields, address entries in both formats,
and `NetworkMessage` with the variants some function of the repository looks
at. Every other variant is `other`, by its command and payload.

Does not own: the byte encoding of a message.
-/

namespace BitcoinPeers

/-- An IP address and a port. -/
inductive SocketAddr where
  | v4 (address : UInt32) (port : UInt16)
  | v6 (address : BitVec 128) (port : UInt16)
deriving DecidableEq, Repr

/-- An address as legacy messages carry it: sixteen bytes, IPv4 in its mapped
form. -/
structure Address where
  services : ServiceFlags
  address : BitVec 128
  port : UInt16
deriving DecidableEq, Repr

/-- The sixteen bytes of `::ffff:a.b.c.d`. -/
def ipv4Mapped (address : UInt32) : BitVec 128 :=
  BitVec.ofNat 128 (0xffff * 2 ^ 32 + address.toNat)

def Address.new : SocketAddr → ServiceFlags → Address
  | .v4 address port, services => ⟨services, ipv4Mapped address, port⟩
  | .v6 address port, services => ⟨services, address, port⟩

/-- One entry of an `addrv2` message. -/
structure AddrV2Message where
  time : UInt32
  services : ServiceFlags
  addr : AddrV2
  port : UInt16
deriving DecidableEq, Repr

structure VersionMessage where
  version : UInt32
  services : ServiceFlags
  timestamp : Int64
  receiver : Address
  sender : Address
  nonce : UInt64
  userAgent : String
  startHeight : Int32
  relay : Bool
deriving DecidableEq

inductive NetworkMessage where
  | version (message : VersionMessage)
  | verack
  | sendAddrV2
  | sendHeaders
  | wtxidRelay
  | getAddr
  | addr (addresses : List (UInt32 × Address))
  | addrV2 (addresses : List AddrV2Message)
  | ping (nonce : UInt64)
  | pong (nonce : UInt64)
  | other (command : String) (payload : List UInt8)
deriving DecidableEq

end BitcoinPeers

import Mathlib.Algebra.Ring.Nat
import Mathlib.Data.Finset.Basic

/-!
Contract: the peer record of `connection/src/peer.rs`.

Owns `PeerServices`, `PeerProtocolVersion`, `Peer`, their constructors and the
protocol version thresholds. `AddrV2` and `ServiceFlags` are the rust-bitcoin
types the record is built from: only their constructors and their equality are
used, and equality of a `Peer` is the derived one, over all four fields.

Does not own: text rendering of a peer.
-/

namespace BitcoinPeers

/-- The network address carried by an `addrv2` entry. -/
inductive AddrV2 where
  | ipv4 (address : UInt32)
  | ipv6 (address : BitVec 128)
  | torV2 (bytes : BitVec 80)
  | torV3 (bytes : BitVec 256)
  | i2p (bytes : BitVec 256)
  | cjdns (address : BitVec 128)
  | unknown (tag : UInt8) (bytes : List UInt8)
deriving DecidableEq, Repr

/-- Service bits advertised by a node. -/
structure ServiceFlags where
  bits : UInt64
deriving DecidableEq, Repr

namespace ServiceFlags

def NONE : ServiceFlags := ⟨0⟩
def NETWORK : ServiceFlags := ⟨1⟩
def P2P_V2 : ServiceFlags := ⟨(1 : UInt64) <<< 11⟩

/-- All bits of `flags` are set in `self`. -/
def has (self flags : ServiceFlags) : Bool := self.bits ||| flags.bits == self.bits

end ServiceFlags

def MIN_PROTOCOL_VERSION : UInt32 := 70001
def ADDRV2_MIN_PROTOCOL_VERSION : UInt32 := 70016
def SENDHEADERS_MIN_PROTOCOL_VERSION : UInt32 := 70012
def WTXID_RELAY_MIN_PROTOCOL_VERSION : UInt32 := 70016

inductive PeerServices where
  | known (flags : ServiceFlags)
  | unknown
deriving DecidableEq, Repr

inductive PeerProtocolVersion where
  | known (version : UInt32)
  | unknown
deriving DecidableEq, Repr

/-- The version number if known, else the default. -/
def PeerProtocolVersion.unwrapOr : PeerProtocolVersion → UInt32 → UInt32
  | .known version, _ => version
  | .unknown, default => default

/-- A bitcoin peer. Two peers are equal only when all four fields are. -/
structure Peer where
  address : AddrV2
  port : UInt16
  services : PeerServices
  version : PeerProtocolVersion
deriving DecidableEq, Repr

namespace Peer

/-- A peer with unknown services and version. -/
def new (address : AddrV2) (port : UInt16) : Peer :=
  ⟨address, port, .unknown, .unknown⟩

/-- A peer with known services, as built from a gossiped entry. -/
def withServices (address : AddrV2) (port : UInt16) (services : ServiceFlags) : Peer :=
  ⟨address, port, .known services, .unknown⟩

/-- The network endpoint a peer is reached at. -/
def endpoint (peer : Peer) : AddrV2 × UInt16 := (peer.address, peer.port)

end Peer

end BitcoinPeers

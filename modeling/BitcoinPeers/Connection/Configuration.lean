import BitcoinPeers.Connection.Message

/-!
Contract: `connection/src/connection/configuration.rs`.

Owns the connection configuration, the feature preferences with their default,
the transport policy, and the user agent the default configuration advertises.

Does not own: validation of user agent strings.
-/

namespace BitcoinPeers

/-- A user agent string, as built by the constructors of `user_agent.rs`. -/
structure UserAgent where
  text : String
deriving DecidableEq, Repr

def UserAgent.asStr (agent : UserAgent) : String := agent.text

/-- Format name and version as `/name:version/`. -/
def bitcoinCoreFormat (name version : String) : String := "/" ++ name ++ ":" ++ version ++ "/"

def UserAgent.fromNameVersion (name version : String) : UserAgent :=
  ⟨bitcoinCoreFormat name version⟩

/-- The version in the crate's manifest. -/
def CARGO_PKG_VERSION : String := "0.2.0"

def defaultUserAgent : UserAgent := .fromNameVersion "bitcoin-peers" CARGO_PKG_VERSION

def NON_LISTENING_ADDRESS : AddrV2 := .ipv4 0
def NON_LISTENING_PORT : UInt16 := 0

inductive TransportPolicy where
  /-- Fail when v2 cannot be established. -/
  | v2Required
  /-- Fall back to v1. -/
  | v2Preferred
deriving DecidableEq, Repr

structure FeaturePreferences where
  enableAddrv2 : Bool := true
  enableSendheaders : Bool := true
  enableWtxidrelay : Bool := true
deriving DecidableEq, Repr

structure ConnectionConfiguration where
  protocolVersion : PeerProtocolVersion
  userAgent : Option UserAgent
  services : ServiceFlags
  senderAddress : AddrV2
  senderPort : UInt16
  startHeight : Int32
  relay : Bool
  transportPolicy : TransportPolicy
  featurePreferences : FeaturePreferences
deriving DecidableEq

namespace ConnectionConfiguration

/-- A configuration that advertises no services and no reachable address. -/
def nonListening (protocolVersion : PeerProtocolVersion) (transportPolicy : TransportPolicy)
    (featurePreferences : FeaturePreferences) (userAgent : Option UserAgent) :
    ConnectionConfiguration where
  protocolVersion := protocolVersion
  userAgent := userAgent
  services := ServiceFlags.NONE
  senderAddress := NON_LISTENING_ADDRESS
  senderPort := NON_LISTENING_PORT
  startHeight := 0
  relay := false
  transportPolicy := transportPolicy
  featurePreferences := featurePreferences

/-- The version a node of this configuration advertises. -/
def localVersion (configuration : ConnectionConfiguration) : UInt32 :=
  configuration.protocolVersion.unwrapOr MIN_PROTOCOL_VERSION

end ConnectionConfiguration

end BitcoinPeers

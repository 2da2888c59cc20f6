import BitcoinPeers.Connection.Configuration

/-!
Contract: `connection/src/connection/state.rs`.

Owns the negotiation state of a feature and its two updates. The three state
types of the source have the same four values and the same two functions, so
they are one type under three names. A feature state records exactly whether the
feature message was sent and whether it was received.
-/

namespace BitcoinPeers

/-- Negotiation state of one feature. -/
inductive FeatureState where
  | notNegotiated
  | sentOnly
  | receivedOnly
  | enabled
deriving DecidableEq, Repr

namespace FeatureState

/-- Update on sending the feature message. -/
def onSend : FeatureState → FeatureState
  | .notNegotiated => .sentOnly
  | .receivedOnly => .enabled
  | state => state

/-- Update on receiving the feature message. -/
def onReceive : FeatureState → FeatureState
  | .notNegotiated => .receivedOnly
  | .sentOnly => .enabled
  | state => state

/-- The state that records a sent and a received message. -/
def recording (sent received : Bool) : FeatureState :=
  match sent, received with
  | false, false => .notNegotiated
  | true, false => .sentOnly
  | false, true => .receivedOnly
  | true, true => .enabled

@[simp] theorem onSend_recording (sent received : Bool) :
    (recording sent received).onSend = recording true received := by
  cases sent <;> cases received <;> rfl

@[simp] theorem onReceive_recording (sent received : Bool) :
    (recording sent received).onReceive = recording sent true := by
  cases sent <;> cases received <;> rfl

/-- Two ends that recorded each other's messages hold mirrored states. -/
theorem recording_mirror (left right : Bool) :
    (recording left right = .enabled ↔ recording right left = .enabled) ∧
      (recording left right = .sentOnly ↔ recording right left = .receivedOnly) ∧
      (recording left right = .receivedOnly ↔ recording right left = .sentOnly) := by
  cases left <;> cases right <;> decide

end FeatureState

abbrev AddrV2State := FeatureState
abbrev SendHeadersState := FeatureState
abbrev WtxidRelayState := FeatureState

structure ConnectionState where
  effectiveProtocolVersion : PeerProtocolVersion
  addrV2 : AddrV2State
  sendHeaders : SendHeadersState
  wtxidRelay : WtxidRelayState
deriving DecidableEq, Repr

namespace ConnectionState

def new : ConnectionState := ⟨.unknown, .notNegotiated, .notNegotiated, .notNegotiated⟩

/-- The update `ConnectionReader::read` makes for a received message. -/
def onReceive (state : ConnectionState) : NetworkMessage → ConnectionState
  | .sendAddrV2 => { state with addrV2 := state.addrV2.onReceive }
  | .sendHeaders => { state with sendHeaders := state.sendHeaders.onReceive }
  | .wtxidRelay => { state with wtxidRelay := state.wtxidRelay.onReceive }
  | _ => state

end ConnectionState

end BitcoinPeers

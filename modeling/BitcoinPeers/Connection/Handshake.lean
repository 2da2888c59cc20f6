import BitcoinPeers.Connection.State
import BitcoinPeers.Error
import BitcoinPeers.Foundation.Process

/-!
Contract: the version handshake of `connection/src/connection/futures.rs` and
`handshake.rs`.

Owns:
- the nonce and the version message;
- the handshake state machine with its version and verack handlers;
- `perform_handshake` as a call that suspends at every read and write, for any
  answers of the transport.

The clock readings are arguments. A `Connection` is its configuration, its peer
record and its negotiation state; the transport is the answers to the requests.

Does not own: what the other side sends.
-/

namespace BitcoinPeers

open BitcoinPeers.Foundation

/-- The nonce of one handshake: nanoseconds since the epoch, cut to 64 bits,
mixed with the process id. -/
def generateNonce (nanoseconds : Nat) (processId : UInt32) : UInt64 :=
  let now := UInt64.ofNat nanoseconds
  let pid := processId.toUInt64
  now ^^^ (pid <<< 32 ||| pid >>> 32)

inductive HandshakeState where
  | versionSent
  | versionReceived
  | verackReceived
  | complete
deriving DecidableEq, Repr

def handleVerackMessage (state : HandshakeState) : HandshakeState :=
  match state with
  | .versionSent | .versionReceived =>
      if state = .versionReceived then .complete else .verackReceived
  | _ => state

def addressToSocket (address : AddrV2) (port : UInt16) : SocketAddr :=
  match address with
  | .ipv4 ipv4 => .v4 ipv4 port
  | .ipv6 ipv6 => .v6 ipv6 port
  | _ => .v6 0 port

structure Connection where
  configuration : ConnectionConfiguration
  peer : Peer
  state : ConnectionState
deriving DecidableEq

namespace Connection

/-- A connection over a negotiated transport, before its handshake. -/
def new (peer : Peer) (configuration : ConnectionConfiguration) : Connection :=
  ⟨configuration, peer, .new⟩

def createVersionMessage (connection : Connection) (nonce : UInt64) (unixTimestamp : Int64) :
    NetworkMessage :=
  let configuration := connection.configuration
  let receiverServices :=
    match connection.peer.services with
    | .known flags => flags
    | .unknown => ServiceFlags.NONE
  let receiverSocketAddr := addressToSocket connection.peer.address connection.peer.port
  let senderSocketAddr := addressToSocket configuration.senderAddress configuration.senderPort
  let userAgentString :=
    match configuration.userAgent with
    | some agent => agent.asStr
    | none => defaultUserAgent.asStr
  .version
    { version := configuration.protocolVersion.unwrapOr MIN_PROTOCOL_VERSION
      services := configuration.services
      timestamp := unixTimestamp
      receiver := Address.new receiverSocketAddr receiverServices
      sender := Address.new senderSocketAddr configuration.services
      nonce := nonce
      userAgent := userAgentString
      startHeight := configuration.startHeight
      relay := configuration.relay }

/-! ## Requests to the transport -/

/-- What a connection asks of its transport. -/
inductive Request where
  | write (message : NetworkMessage)
  | read
deriving DecidableEq

/-- What the transport answers. -/
abbrev Answer : Request → Type
  | .write _ => Except TransportError Unit
  | .read => Except TransportError NetworkMessage

end Connection

/-- Code of a connection. -/
abbrev ConnectionM := Computation Connection Connection.Request Connection.Answer ConnectionError

namespace Connection

open Computation

def write (message : NetworkMessage) : ConnectionM Unit := do
  let outcome ← perform (Request.write message)
  match outcome with
  | .ok () => pure ()
  | .error error => fail (.transportFailed error)

def read : ConnectionM NetworkMessage := do
  let outcome ← perform Request.read
  match outcome with
  | .ok message =>
      modify fun connection => { connection with state := connection.state.onReceive message }
      pure message
  | .error error => fail (.transportFailed error)

/-! ## The handshake -/

def sendNegotiationMessages (effectiveVersion : UInt32) : ConnectionM Unit := do
  let features := (← get).configuration.featurePreferences
  if features.enableAddrv2 && ADDRV2_MIN_PROTOCOL_VERSION ≤ effectiveVersion then
    write .sendAddrV2
    modify fun connection =>
      { connection with state.addrV2 := connection.state.addrV2.onSend }
  if features.enableSendheaders && SENDHEADERS_MIN_PROTOCOL_VERSION ≤ effectiveVersion then
    write .sendHeaders
    modify fun connection =>
      { connection with state.sendHeaders := connection.state.sendHeaders.onSend }
  if features.enableWtxidrelay && WTXID_RELAY_MIN_PROTOCOL_VERSION ≤ effectiveVersion then
    write .wtxidRelay
    modify fun connection =>
      { connection with state.wtxidRelay := connection.state.wtxidRelay.onSend }

def handleVersionMessage (version : VersionMessage) (ourNonce : UInt64) (state : HandshakeState) :
    ConnectionM HandshakeState := do
  if version.nonce = ourNonce then
    fail .connectionLoop
  else
    match state with
    | .versionSent | .verackReceived =>
        modify fun connection =>
          { connection with
            peer.services := .known version.services
            peer.version := .known version.version }
        let localVersion :=
          (← get).configuration.protocolVersion.unwrapOr MIN_PROTOCOL_VERSION
        let effectiveVersion := min localVersion version.version
        modify fun connection =>
          { connection with state.effectiveProtocolVersion := .known effectiveVersion }
        sendNegotiationMessages effectiveVersion
        write .verack
        pure (if state = .verackReceived then .complete else .versionReceived)
    | _ => pure state

/-- `perform_handshake` up to its loop. -/
def startHandshake (nonce : UInt64) (unixTimestamp : Int64) : ConnectionM HandshakeState := do
  write ((← get).createVersionMessage nonce unixTimestamp)
  pure .versionSent

/-- The body of the loop of `perform_handshake`. -/
def handshakeRound (nonce : UInt64) (state : HandshakeState) : ConnectionM HandshakeState := do
  match ← read with
  | .version version => handleVersionMessage version nonce state
  | .verack => pure (handleVerackMessage state)
  | _ => pure state

/-- A call of `perform_handshake`: suspended in the code before a loop test, or
returned. -/
inductive Handshake where
  | running (process : Process Connection Request Answer (Except ConnectionError HandshakeState))
  | returned (connection : Connection) (result : Except ConnectionError Unit)

/-- The loop test, when the code before it has ended. -/
def Handshake.resume (nonce : UInt64) :
    Process Connection Request Answer (Except ConnectionError HandshakeState) → Handshake
  | .done connection (.ok .complete) => .returned connection (.ok ())
  | .done connection (.ok state) => .running (handshakeRound nonce state connection)
  | .done connection (.error error) => .returned connection (.error error)
  | .ask connection request answered => .running (.ask connection request answered)

def performHandshake (nonce : UInt64) (unixTimestamp : Int64) (connection : Connection) :
    Handshake :=
  .resume nonce (startHandshake nonce unixTimestamp connection)

end Connection

end BitcoinPeers

import BitcoinPeers.Connection.Handshake

/-!
Contract: outbound connections of `connection/src/connection/tcp.rs` and
`Connection::connect`.

Owns the choice of the transport for an outbound connection, and the whole
attempt: transport, then handshake, for any answers of the network. An answer
that does not come is `none`. The peer record keeps its address and port.

Does not own: inbound connections, or what the transports do with bytes.
-/

namespace BitcoinPeers

open BitcoinPeers.Foundation

/-- The transport a connection runs over. -/
inductive TransportKind where
  | v1
  | v2
deriving DecidableEq, Repr

/-- A computation over the network that may fail or never return. -/
abbrev Attempt := ExceptT ConnectionError Option

/-- What the network answers while an outbound transport is set up. -/
structure Dial where
  /-- `establish_tcp_connection`, first call. -/
  stream : Option (Except IoError Unit)
  /-- Whether the BIP-324 initiator succeeds. -/
  initiator : Option Bool
  /-- `establish_tcp_connection` for the fallback. -/
  fallback : Option (Except IoError Unit)

/-- An I/O outcome, with its error converted. -/
def establish (outcome : Option (Except IoError Unit)) : Attempt Unit :=
  ExceptT.mk (outcome.map fun
    | .ok () => .ok ()
    | .error error => .error (.io error))

def negotiateOutboundTransport (dial : Dial) (peer : Peer) (policy : TransportPolicy) :
    Attempt TransportKind := do
  let peerSupportsV2 :=
    match peer.services with
    | .unknown => true
    | .known flags => flags.has ServiceFlags.P2P_V2
  if !peerSupportsV2 && policy = .v2Preferred then
    establish dial.stream
    return .v1
  establish dial.stream
  if ← ExceptT.mk (dial.initiator.map .ok) then
    return .v2
  match policy with
  | .v2Required => throw .v2TransportRequired
  | .v2Preferred =>
      establish dial.fallback
      return .v1

/-- `tcp::connect`. -/
def tcpConnect (dial : Dial) (peer : Peer) (policy : TransportPolicy) : Attempt TransportKind :=
  match peer.address with
  | .ipv4 _ | .ipv6 _ => negotiateOutboundTransport dial peer policy
  | _ => throw .unsupportedAddressType

namespace Connection

/-- What the transport answers to one request, by its kind. -/
structure Response where
  write : Except TransportError Unit
  read : Except TransportError NetworkMessage

def Response.answer (response : Response) : (request : Request) → Answer request
  | .write _ => response.write
  | .read => response.read

/-- Run a handshake on the responses that arrive. `none` means that it is still
waiting when they end. -/
def Handshake.drive (nonce : UInt64) :
    List Response → Handshake → Option (Except ConnectionError Connection)
  | _, .returned connection (.ok ()) => some (.ok connection)
  | _, .returned _ (.error error) => some (.error error)
  | [], .running _ => none
  | response :: rest, .running (.ask _ request answered) =>
      drive nonce rest (.resume nonce (answered (response.answer request)))
  | _ :: rest, .running (.done connection outcome) =>
      drive nonce rest (.resume nonce (.done connection outcome))

/-- What one outbound connection attempt meets. -/
structure Link where
  dial : Dial
  nanoseconds : Nat
  processId : UInt32
  unixTimestamp : Int64
  responses : List Response

/-- `Connection::connect`. -/
def connect (link : Link) (peer : Peer) (configuration : ConnectionConfiguration) :
    Attempt Connection := do
  let _ ← tcpConnect link.dial peer configuration.transportPolicy
  let nonce := generateNonce link.nanoseconds link.processId
  ExceptT.mk
    ((performHandshake nonce link.unixTimestamp (.new peer configuration)).drive nonce
      link.responses)

/-! ## The peer's endpoint -/

open Computation

section Endpoint

variable {endpoint : AddrV2 × UInt16}

/-- The connection is to the given endpoint. -/
def At (endpoint : AddrV2 × UInt16) (connection : Connection) : Prop :=
  connection.peer.endpoint = endpoint

theorem keeps_write (message : NetworkMessage) : (write message).Keeps (At endpoint) := by
  apply keeps_bind (keeps_perform _)
  intro outcome
  cases outcome with
  | ok _ => exact keeps_pure _
  | error error => exact keeps_fail _

theorem keeps_read : read.Keeps (At endpoint) := by
  apply keeps_bind (keeps_perform _)
  intro outcome
  cases outcome with
  | ok message =>
      apply keeps_bind
      · exact keeps_modify fun connection here => here
      · intro _
        exact keeps_pure _
  | error error => exact keeps_fail _

/-- Sending one feature message keeps the endpoint, whatever follows. -/
theorem keeps_offer {condition : Prop} [Decidable condition] (message : NetworkMessage)
    {change : Connection → Connection} {rest : ConnectionM Unit}
    (kept : ∀ connection, At endpoint connection → At endpoint (change connection))
    (keepsRest : rest.Keeps (At endpoint)) :
    (if condition then (do write message; modify change; rest) else rest :
      ConnectionM Unit).Keeps (At endpoint) := by
  split
  · apply keeps_bind (keeps_write message)
    intro _
    apply keeps_bind (keeps_modify kept)
    intro _
    exact keepsRest
  · exact keepsRest

theorem keeps_sendNegotiationMessages (effectiveVersion : UInt32) :
    (sendNegotiationMessages effectiveVersion).Keeps (At endpoint) := by
  unfold sendNegotiationMessages
  apply keeps_bind keeps_get
  intro connection
  apply keeps_offer
  · exact fun _ here => here
  · apply keeps_offer
    · exact fun _ here => here
    · split
      · apply keeps_bind (keeps_write _)
        intro _
        exact keeps_modify fun _ here => here
      · exact keeps_pure ()

theorem keeps_handleVersionMessage (version : VersionMessage) (nonce : UInt64)
    (state : HandshakeState) :
    (handleVersionMessage version nonce state).Keeps (At endpoint) := by
  unfold handleVersionMessage
  split
  · exact keeps_fail _
  · have greets : ∀ final : HandshakeState,
        (do
          modify fun connection =>
            { connection with
              peer.services := .known version.services
              peer.version := .known version.version }
          let localVersion :=
            (← get).configuration.protocolVersion.unwrapOr MIN_PROTOCOL_VERSION
          let effectiveVersion := min localVersion version.version
          modify fun connection =>
            { connection with state.effectiveProtocolVersion := .known effectiveVersion }
          sendNegotiationMessages effectiveVersion
          write .verack
          pure final : ConnectionM HandshakeState).Keeps (At endpoint) := by
      intro final
      apply keeps_bind
      · exact keeps_modify fun _ here => here
      intro _
      apply keeps_bind keeps_get
      intro connection
      apply keeps_bind
      · exact keeps_modify fun _ here => here
      intro _
      apply keeps_bind (keeps_sendNegotiationMessages _)
      intro _
      apply keeps_bind (keeps_write _)
      intro _
      exact keeps_pure final
    cases state with
    | versionSent => exact greets _
    | verackReceived => exact greets _
    | versionReceived => exact keeps_pure _
    | complete => exact keeps_pure _

theorem keeps_handshakeRound (nonce : UInt64) (state : HandshakeState) :
    (handshakeRound nonce state).Keeps (At endpoint) := by
  apply keeps_bind keeps_read
  intro message
  cases message with
  | version version => exact keeps_handleVersionMessage version nonce state
  | _ => exact keeps_pure _

theorem keeps_startHandshake (nonce : UInt64) (unixTimestamp : Int64) :
    (startHandshake nonce unixTimestamp).Keeps (At endpoint) := by
  apply keeps_bind keeps_get
  intro connection
  apply keeps_bind (keeps_write _)
  intro _
  exact keeps_pure _

/-- A call of `perform_handshake` stays at the endpoint at every point. -/
def Handshake.StaysAt (endpoint : AddrV2 × UInt16) : Handshake → Prop
  | .running process => process.Throughout (At endpoint)
  | .returned connection _ => At endpoint connection

theorem staysAt_resume (nonce : UInt64)
    {process : Process Connection Request Answer (Except ConnectionError HandshakeState)}
    (stays : process.Throughout (At endpoint)) :
    (Handshake.resume nonce process).StaysAt endpoint := by
  cases process with
  | ask connection request answered => exact stays
  | done connection outcome =>
      cases outcome with
      | error error => exact stays
      | ok state =>
          cases state with
          | complete => exact stays
          | _ => exact keeps_handshakeRound nonce _ connection stays

theorem at_of_drive {nonce : UInt64} {responses : List Response} {handshake : Handshake}
    {connection : Connection} (stays : handshake.StaysAt endpoint)
    (driven : handshake.drive nonce responses = some (.ok connection)) :
    At endpoint connection := by
  induction responses generalizing handshake with
  | nil =>
      cases handshake with
      | running process => cases driven
      | returned final outcome =>
          cases outcome <;> cases driven
          exact stays
  | cons response rest inductionHypothesis =>
      cases handshake with
      | returned final outcome =>
          cases outcome <;> cases driven
          exact stays
      | running process =>
          cases process with
          | ask store request answered =>
              exact inductionHypothesis (staysAt_resume nonce (stays.2 _)) driven
          | done store outcome => exact inductionHypothesis (staysAt_resume nonce stays) driven

end Endpoint

/-- A connection that was made is to the peer's address and port. -/
theorem endpoint_of_connect {link : Link} {peer : Peer}
    {configuration : ConnectionConfiguration} {connection : Connection}
    (connected : (connect link peer configuration).run = some (.ok connection)) :
    connection.peer.endpoint = peer.endpoint := by
  simp only [connect, ExceptT.run_bind] at connected
  cases dialled : (tcpConnect link.dial peer configuration.transportPolicy).run with
  | none =>
      rw [dialled] at connected
      cases connected
  | some outcome =>
      rw [dialled] at connected
      cases outcome with
      | error error => cases connected
      | ok kind =>
          apply at_of_drive _ connected
          apply staysAt_resume
          exact keeps_startHandshake _ _ _ rfl

end Connection

end BitcoinPeers

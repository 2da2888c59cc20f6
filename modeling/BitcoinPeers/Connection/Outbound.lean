import BitcoinPeers.Connection.Conversation
import BitcoinPeers.Connection.Lifetime

/-!
Contract: where the result of `Connection::connect` comes from.

Owns:
- the ways an outbound transport comes about, and the errors of each stage;
- that the policy is kept: no plaintext transport where v2 is required;
- the whole attempt, for any answers of the network and the transport, and what
  an attempt that has not ended still waits for.

Does not own: whether the answers come at all.
-/

namespace BitcoinPeers.Connection

open BitcoinPeers.Foundation

/-! ## The transport -/

/-- TCP can reach the address. -/
def Reachable : AddrV2 → Prop
  | .ipv4 _ => True
  | .ipv6 _ => True
  | _ => False

/-- The v2 attempt is left out: v1 is allowed and the peer is known not to
support v2. -/
def SkipsV2 (peer : Peer) (policy : TransportPolicy) : Prop :=
  policy = .v2Preferred ∧ ∃ flags, peer.services = .known flags ∧
    flags.has ServiceFlags.P2P_V2 = false

/-- How the transport of an outbound connection came about, or why it did not. -/
inductive Dialled (dial : Dial) (peer : Peer) (policy : TransportPolicy) :
    Except ConnectionError TransportKind → Prop where
  | unsupported (address : ¬ Reachable peer.address) :
      Dialled dial peer policy (.error .unsupportedAddressType)
  | refused {error : IoError} (address : Reachable peer.address)
      (stream : dial.stream = some (.error error)) : Dialled dial peer policy (.error (.io error))
  | plain (address : Reachable peer.address) (stream : dial.stream = some (.ok ()))
      (skips : SkipsV2 peer policy) : Dialled dial peer policy (.ok .v1)
  | encrypted (address : Reachable peer.address) (stream : dial.stream = some (.ok ()))
      (tries : ¬ SkipsV2 peer policy) (initiator : dial.initiator = some true) :
      Dialled dial peer policy (.ok .v2)
  | required (address : Reachable peer.address) (stream : dial.stream = some (.ok ()))
      (initiator : dial.initiator = some false) (strict : policy = .v2Required) :
      Dialled dial peer policy (.error .v2TransportRequired)
  | fellBack (address : Reachable peer.address) (stream : dial.stream = some (.ok ()))
      (tries : ¬ SkipsV2 peer policy) (initiator : dial.initiator = some false)
      (lenient : policy = .v2Preferred) (fallback : dial.fallback = some (.ok ())) :
      Dialled dial peer policy (.ok .v1)
  | fallbackRefused {error : IoError} (address : Reachable peer.address)
      (stream : dial.stream = some (.ok ())) (tries : ¬ SkipsV2 peer policy)
      (initiator : dial.initiator = some false) (lenient : policy = .v2Preferred)
      (fallback : dial.fallback = some (.error error)) :
      Dialled dial peer policy (.error (.io error))

/-- The answer that the set-up of an outbound transport still waits for. -/
inductive Dialling (dial : Dial) (peer : Peer) (policy : TransportPolicy) : Prop where
  | connecting (address : Reachable peer.address) (stream : dial.stream = none)
  | initiating (address : Reachable peer.address) (stream : dial.stream = some (.ok ()))
      (tries : ¬ SkipsV2 peer policy) (initiator : dial.initiator = none)
  | fallingBack (address : Reachable peer.address) (stream : dial.stream = some (.ok ()))
      (tries : ¬ SkipsV2 peer policy) (initiator : dial.initiator = some false)
      (lenient : policy = .v2Preferred) (fallback : dial.fallback = none)

/-- The part of `negotiate_outbound_transport` that tries v2. -/
def attemptV2 (dial : Dial) (policy : TransportPolicy) : Attempt TransportKind := do
  establish dial.stream
  if ← ExceptT.mk (dial.initiator.map .ok) then
    return .v2
  match policy with
  | .v2Required => throw .v2TransportRequired
  | .v2Preferred =>
      establish dial.fallback
      return .v1

theorem negotiate_of_tries {dial : Dial} {peer : Peer} {policy : TransportPolicy}
    (tries : ¬ SkipsV2 peer policy) :
    negotiateOutboundTransport dial peer policy = attemptV2 dial policy := by
  unfold negotiateOutboundTransport
  cases services : peer.services with
  | unknown => rfl
  | known flags =>
      cases supports : flags.has ServiceFlags.P2P_V2 with
      | true =>
          simp only [supports]
          rfl
      | false =>
          cases policy with
          | v2Required => simp only [supports]; rfl
          | v2Preferred => exact absurd ⟨rfl, flags, services, supports⟩ tries

/-- The set-up of an outbound transport ended as it met its answers, or waits. -/
def Sets (dial : Dial) (peer : Peer) (policy : TransportPolicy) :
    Option (Except ConnectionError TransportKind) → Prop
  | some result => Dialled dial peer policy result
  | none => Dialling dial peer policy

theorem sets_attempt {dial : Dial} {peer : Peer} {policy : TransportPolicy}
    (address : Reachable peer.address) (tries : ¬ SkipsV2 peer policy) :
    Sets dial peer policy (attemptV2 dial policy).run := by
  obtain ⟨stream, initiator, fallback⟩ := dial
  rcases stream with _ | refused | ⟨⟩
  · exact .connecting address rfl
  · exact .refused address rfl
  · rcases initiator with _ | _ | _
    · exact .initiating address rfl tries rfl
    · cases policy with
      | v2Required => exact .required address rfl rfl rfl
      | v2Preferred =>
          rcases fallback with _ | refused | ⟨⟩
          · exact .fallingBack address rfl tries rfl rfl rfl
          · exact .fallbackRefused address rfl tries rfl rfl rfl
          · exact .fellBack address rfl tries rfl rfl rfl
    · exact .encrypted address rfl tries rfl

theorem sets_negotiate (dial : Dial) {peer : Peer} (policy : TransportPolicy)
    (address : Reachable peer.address) :
    Sets dial peer policy (negotiateOutboundTransport dial peer policy).run := by
  by_cases skips : SkipsV2 peer policy
  · obtain ⟨rfl, flags, known, lacks⟩ := skips
    obtain ⟨stream, initiator, fallback⟩ := dial
    simp only [negotiateOutboundTransport, known, lacks]
    rcases stream with _ | refused | ⟨⟩
    · exact .connecting address rfl
    · exact .refused address rfl
    · exact .plain address rfl ⟨rfl, flags, known, lacks⟩
  · rw [negotiate_of_tries skips]
    exact sets_attempt address skips

theorem sets_tcpConnect (dial : Dial) (peer : Peer) (policy : TransportPolicy) :
    Sets dial peer policy (tcpConnect dial peer policy).run := by
  unfold tcpConnect
  cases address : peer.address with
  | ipv4 host => exact sets_negotiate dial policy (by rw [address]; trivial)
  | ipv6 host => exact sets_negotiate dial policy (by rw [address]; trivial)
  | _ => exact .unsupported (by rw [address]; exact id)

/-- A plaintext transport is never used where v2 is required. -/
theorem Dialled.encrypted_of_required {dial : Dial} {peer : Peer} {policy : TransportPolicy}
    {kind : TransportKind} (dialled : Dialled dial peer policy (.ok kind))
    (strict : policy = .v2Required) : kind = .v2 := by
  cases dialled with
  | plain address stream skips =>
      rw [strict] at skips
      cases skips.1
  | encrypted address stream tries initiator => rfl
  | fellBack address stream tries initiator lenient fallback =>
      rw [strict] at lenient
      cases lenient

/-! ## The connection -/

/-- What an attempt brings to its handshake. -/
def Link.party (link : Link) (peer : Peer) (configuration : ConnectionConfiguration) : Party where
  configuration := configuration
  peer := peer
  nonce := generateNonce link.nanoseconds link.processId
  unixTimestamp := link.unixTimestamp

theorem connect_of_none {link : Link} {peer : Peer} {configuration : ConnectionConfiguration}
    (waits : (tcpConnect link.dial peer configuration.transportPolicy).run = none) :
    (connect link peer configuration).run = none := by
  simp only [connect, ExceptT.run_bind, waits]
  rfl

theorem connect_of_error {link : Link} {peer : Peer} {configuration : ConnectionConfiguration}
    {error : ConnectionError}
    (refused : (tcpConnect link.dial peer configuration.transportPolicy).run =
      some (.error error)) :
    (connect link peer configuration).run = some (.error error) := by
  simp only [connect, ExceptT.run_bind, refused]
  rfl

theorem connect_of_ok {link : Link} {peer : Peer} {configuration : ConnectionConfiguration}
    {kind : TransportKind}
    (dialled : (tcpConnect link.dial peer configuration.transportPolicy).run =
      some (.ok kind)) :
    (connect link peer configuration).run = (link.party peer configuration).start.drive
      (link.party peer configuration).nonce link.responses := by
  simp only [connect, ExceptT.run_bind, dialled]
  rfl

/-- How an outbound attempt ended: without a transport, or with the handshake over
one that the policy allows. -/
inductive Attempted (link : Link) (peer : Peer) (configuration : ConnectionConfiguration) :
    Except ConnectionError Connection → Prop where
  | undialled {error : ConnectionError}
      (dialled : Dialled link.dial peer configuration.transportPolicy (.error error)) :
      Attempted link peer configuration (.error error)
  | handshaken {kind : TransportKind} {result : Except ConnectionError Connection}
      (dialled : Dialled link.dial peer configuration.transportPolicy (.ok kind))
      (allowed : configuration.transportPolicy = .v2Required → kind = .v2)
      (report : Report (link.party peer configuration)
        ((link.party peer configuration).start.events (link.party peer configuration).nonce
          link.responses).1 (some result)) :
      Attempted link peer configuration result

/-- What an attempt that has not ended waits for. -/
inductive Attempting (link : Link) (peer : Peer) (configuration : ConnectionConfiguration) :
    Prop where
  | dialling (dialling : Dialling link.dial peer configuration.transportPolicy)
  | handshaking {kind : TransportKind}
      (dialled : Dialled link.dial peer configuration.transportPolicy (.ok kind))
      (used : ((link.party peer configuration).start.events (link.party peer configuration).nonce
        link.responses).1.length = link.responses.length)
      (unfinished : Unfinished (link.party peer configuration)
        ((link.party peer configuration).start.events (link.party peer configuration).nonce
          link.responses).1)

theorem attempted_of_connect {link : Link} {peer : Peer}
    {configuration : ConnectionConfiguration} {result : Except ConnectionError Connection}
    (ended : (connect link peer configuration).run = some result) :
    Attempted link peer configuration result := by
  have sets := sets_tcpConnect link.dial peer configuration.transportPolicy
  cases dialled : (tcpConnect link.dial peer configuration.transportPolicy).run with
  | none =>
      rw [connect_of_none dialled] at ended
      cases ended
  | some outcome =>
      rw [dialled] at sets
      cases outcome with
      | error error =>
          rw [connect_of_error dialled] at ended
          cases ended
          exact .undialled sets
      | ok kind =>
          rw [connect_of_ok dialled] at ended
          have report := handshake_report (link.party peer configuration) link.responses
          rw [ended] at report
          exact .handshaken sets (Dialled.encrypted_of_required sets) report

theorem attempting_of_connect {link : Link} {peer : Peer}
    {configuration : ConnectionConfiguration}
    (waits : (connect link peer configuration).run = none) :
    Attempting link peer configuration := by
  have sets := sets_tcpConnect link.dial peer configuration.transportPolicy
  cases dialled : (tcpConnect link.dial peer configuration.transportPolicy).run with
  | none =>
      rw [dialled] at sets
      exact .dialling sets
  | some outcome =>
      rw [dialled] at sets
      cases outcome with
      | error error =>
          rw [connect_of_error dialled] at waits
          cases waits
      | ok kind =>
          rw [connect_of_ok dialled] at waits
          obtain ⟨used, unfinished⟩ := handshake_unfinished waits
          exact .handshaking sets used unfinished

/-- `Connection::connect` on any answers of the network. If it ends, it ends with
the error that the set-up of the transport met, or over a transport that the policy
allows with the result of the handshake on the answers of that transport. If it
does not, an answer that the set-up asks for has not come, or the handshake has
used all the answers of its transport and still waits. -/
theorem connect_outcome (link : Link) (peer : Peer) (configuration : ConnectionConfiguration) :
    let party := link.party peer configuration
    let events := (party.start.events party.nonce link.responses).1
    (∀ result, (connect link peer configuration).run = some result →
      (∃ error, result = .error error ∧
        Dialled link.dial peer configuration.transportPolicy (.error error)) ∨
      ∃ kind, Dialled link.dial peer configuration.transportPolicy (.ok kind) ∧
        (configuration.transportPolicy = .v2Required → kind = .v2) ∧
        Report party events (some result)) ∧
    ((connect link peer configuration).run = none →
      Dialling link.dial peer configuration.transportPolicy ∨
      ∃ kind, Dialled link.dial peer configuration.transportPolicy (.ok kind) ∧
        events.length = link.responses.length ∧ Unfinished party events) := by
  intro party events
  refine ⟨fun result ended => ?_, fun waits => ?_⟩
  · cases attempted_of_connect ended with
    | undialled dialled => exact .inl ⟨_, rfl, dialled⟩
    | handshaken dialled allowed report => exact .inr ⟨_, dialled, allowed, report⟩
  · cases attempting_of_connect waits with
    | dialling dialling => exact .inl dialling
    | handshaking dialled used unfinished => exact .inr ⟨_, dialled, used, unfinished⟩

/-- The error of a socket that the peer has closed. -/
def brokenPipe : TransportError := .io ⟨.other 32, "Broken pipe (os error 32)"⟩

/-- A plaintext attempt that breaks while the answer to the peer's version is
written. -/
def brokenLink : Link where
  dial := ⟨some (.ok ()), some false, some (.ok ())⟩
  nanoseconds := 5
  processId := 1
  unixTimestamp := 0
  responses :=
    [⟨.ok (), .error brokenPipe⟩, ⟨.ok (), .ok (.version remoteVersion)⟩,
      ⟨.ok (), .error brokenPipe⟩, ⟨.error brokenPipe, .error brokenPipe⟩]

/-- The same attempt to a peer that says nothing. -/
def silentLink : Link := { brokenLink with responses := [⟨.ok (), .error brokenPipe⟩] }

theorem connect_outcome_broken :
    ((connect brokenLink (.new (.ipv4 1) 8333) quietConfiguration).run =
        some (.error (.transportFailed brokenPipe)) ∧
      ∃ kind, Dialled brokenLink.dial (.new (.ipv4 1) 8333) .v2Preferred (.ok kind)) ∧
    (connect silentLink (.new (.ipv4 1) 8333) quietConfiguration).run = none ∧
      Unfinished (silentLink.party (.new (.ipv4 1) 8333) quietConfiguration)
        [.wrote (silentLink.party (.new (.ipv4 1) 8333) quietConfiguration).greeting
          (.ok ())] := by
  have ended : (connect brokenLink (.new (.ipv4 1) 8333) quietConfiguration).run =
      some (.error (.transportFailed brokenPipe)) := rfl
  have waits : (connect silentLink (.new (.ipv4 1) 8333) quietConfiguration).run = none := rfl
  refine ⟨⟨ended, ?_⟩, waits, ?_⟩
  · rcases (connect_outcome brokenLink (.new (.ipv4 1) 8333) quietConfiguration).1 _ ended with
      ⟨error, same, dialled⟩ | ⟨kind, dialled, -, -⟩
    · cases same
      cases dialled
    · exact ⟨kind, dialled⟩
  · rcases (connect_outcome silentLink (.new (.ipv4 1) 8333) quietConfiguration).2 waits with
      dialling | ⟨kind, -, -, unfinished⟩
    · cases dialling with
      | connecting address stream => cases stream
      | initiating address stream tries initiator => cases initiator
      | fallingBack address stream tries initiator lenient fallback => cases fallback
    · exact unfinished

end BitcoinPeers.Connection

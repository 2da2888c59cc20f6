import BitcoinPeers.Connection.Inbound
import BitcoinPeers.Connection.Lifetime
import BitcoinPeers.Connection.Script

/-!
Contract: `Connection::accept`, from an accepted socket to its connection.

Owns:
- the whole call: detection of the transport, then the handshake over it;
- where its result comes from, for any socket, policy and BIP-324 responder;
- that for a v1 peer the result depends on the bytes it sends, not on the
  pieces they come in.

A v2 session is driven by the answers of its transport. Does not own: BIP-324.
-/

namespace BitcoinPeers.Connection

open BitcoinPeers.Foundation BitcoinPeers.Transport

/-! ## The call -/

/-- What one inbound connection meets. -/
structure Visit (Session : Type) where
  incoming : Incoming
  nanoseconds : Nat
  processId : UInt32
  unixTimestamp : Int64
  /-- The socket during a handshake over a v1 transport. -/
  turns : List Turn
  /-- The answers of a v2 transport. -/
  responses : Session → List Response

section Accept

variable {Session : Type} (responder : List UInt8 → Option Session) (codec : Codec)

/-- `Connection::accept`. -/
def accept (visit : Visit Session) (configuration : ConnectionConfiguration) :
    BitcoinPeers.Attempt Connection := do
  let (transport, peer) ←
    tcpAccept responder codec.magic visit.incoming configuration.transportPolicy
  let nonce := generateNonce visit.nanoseconds visit.processId
  let handshake := performHandshake nonce visit.unixTimestamp (.new peer configuration)
  match transport with
  | .v1 transport reader =>
      let connection : Course Channel := ⟨[], .ofTransport transport reader.bytes, handshake⟩
      ExceptT.mk (connection.after (v1Medium codec) nonce visit.turns).call.result
  | .v2 session => ExceptT.mk (handshake.drive nonce (visit.responses session))

/-! ## The transport -/

/-- How the transport of an inbound connection came about, or why it did not. -/
inductive Admitted (magic : Magic) (incoming : Incoming) (policy : TransportPolicy) :
    Except ConnectionError (InboundTransport Session × Peer) → Prop where
  | unconfigured {error : IoError} (nodelay : incoming.nodelay = .error error) :
      Admitted magic incoming policy (.error (.io error))
  | unnamed {error : IoError} (nodelay : incoming.nodelay = .ok ())
      (address : incoming.peerAddr = .error error) :
      Admitted magic incoming policy (.error (.io error))
  | unread {address : SocketAddr} {error : IoError} {rest : List (Except IoError (List UInt8))}
      (nodelay : incoming.nodelay = .ok ()) (known : incoming.peerAddr = .ok address)
      (arrives : incoming.arrives = true) (failed : incoming.reads = .error error :: rest) :
      Admitted magic incoming policy (.error (.io error))
  | required {address : SocketAddr} (nodelay : incoming.nodelay = .ok ())
      (known : incoming.peerAddr = .ok address) (arrives : incoming.arrives = true)
      (shows : ShowsMagic magic incoming.reads) (strict : policy = .v2Required) :
      Admitted magic incoming policy (.error .v2TransportRequired)
  | plain {address : SocketAddr} {reader : BufReader} (nodelay : incoming.nodelay = .ok ())
      (known : incoming.peerAddr = .ok address) (arrives : incoming.arrives = true)
      (shows : ShowsMagic magic incoming.reads) (lenient : policy = .v2Preferred)
      (whole : reader.bytes = incoming.reader.bytes) :
      Admitted magic incoming policy
        (.ok (.v1 (.new magic) reader, peerFromSocketAddr address))
  | encrypted {address : SocketAddr} {session : Session} (nodelay : incoming.nodelay = .ok ())
      (known : incoming.peerAddr = .ok address) (arrives : incoming.arrives = true)
      (asks : AsksResponder magic incoming.reads) (responds : incoming.responds = true)
      (agreed : responder incoming.reader.bytes = some session) :
      Admitted magic incoming policy (.ok (.v2 session, peerFromSocketAddr address))
  | refused {address : SocketAddr} (nodelay : incoming.nodelay = .ok ())
      (known : incoming.peerAddr = .ok address) (arrives : incoming.arrives = true)
      (asks : AsksResponder magic incoming.reads) (responds : incoming.responds = true)
      (failed : responder incoming.reader.bytes = none) :
      Admitted magic incoming policy (.error (.transportFailed .encryption))

/-- What the set-up of an inbound transport still waits for. -/
inductive Admitting (magic : Magic) (incoming : Incoming) : Prop where
  | peeking {address : SocketAddr} (nodelay : incoming.nodelay = .ok ())
      (known : incoming.peerAddr = .ok address) (silent : incoming.arrives = false)
  | responding {address : SocketAddr} (nodelay : incoming.nodelay = .ok ())
      (known : incoming.peerAddr = .ok address) (asks : AsksResponder magic incoming.reads)
      (silent : incoming.responds = false)

/-- The set-up of an inbound transport ended as its socket let it, or waits. -/
def Admits (magic : Magic) (incoming : Incoming) (policy : TransportPolicy) :
    Option (Except ConnectionError (InboundTransport Session × Peer)) → Prop
  | some result => Admitted responder magic incoming policy result
  | none => Admitting magic incoming

theorem admitted_of_returns {magic : Magic} {incoming : Incoming} {address : SocketAddr}
    (policy : TransportPolicy) (nodelay : incoming.nodelay = .ok ())
    (known : incoming.peerAddr = .ok address) (returns : ¬ incoming.Waits magic) :
    Admitted responder magic incoming policy
      ((negotiateInboundTransport responder magic incoming.reader policy).map
        (·, peerFromSocketAddr address)) := by
  obtain ⟨arriving, responding⟩ := not_or.mp returns
  have arrives : incoming.arrives = true := by simpa using arriving
  rcases first_cases magic incoming.reads with ⟨error, rest, failed⟩ | shows | asks
  · have broken : negotiateInboundTransport responder magic incoming.reader policy =
        .error (.io error) := by
      rw [Incoming.reader, failed]
      rfl
    rw [broken]
    exact .unread nodelay known arrives failed
  · obtain ⟨strict, reader, whole, plain⟩ := negotiate_of_magic responder shows
    cases policy with
    | v2Required =>
        rw [Incoming.reader, strict]
        exact .required nodelay known arrives shows rfl
    | v2Preferred =>
        rw [Incoming.reader, plain]
        exact .plain nodelay known arrives shows rfl whole
  · have responds : incoming.responds = true := by simpa [asks] using responding
    rw [Incoming.reader, negotiate_of_asks responder asks]
    cases agreed : responder (BufReader.mk [] incoming.reads).bytes with
    | none => exact .refused nodelay known arrives asks responds agreed
    | some session => exact .encrypted nodelay known arrives asks responds agreed

theorem admits_tcpAccept (magic : Magic) (incoming : Incoming) (policy : TransportPolicy) :
    Admits responder magic incoming policy (tcpAccept responder magic incoming policy).run := by
  cases nodelay : incoming.nodelay with
  | error error =>
      simp only [tcpAccept, nodelay]
      exact .unconfigured nodelay
  | ok _ =>
      cases known : incoming.peerAddr with
      | error error =>
          simp only [tcpAccept, nodelay, known]
          exact .unnamed nodelay known
      | ok address =>
          by_cases waits : incoming.Waits magic
          · rw [tcpAccept_of_waits responder magic nodelay known waits]
            rcases waits with silent | ⟨asks, silent⟩
            · exact .peeking nodelay known silent
            · exact .responding nodelay known asks silent
          · rw [tcpAccept_of_ok responder magic nodelay known waits]
            exact admitted_of_returns responder policy nodelay known waits

/-! ## The connection -/

/-- What a visit brings to its handshake. -/
def Visit.party (visit : Visit Session) (peer : Peer) (configuration : ConnectionConfiguration) :
    Party where
  configuration := configuration
  peer := peer
  nonce := generateNonce visit.nanoseconds visit.processId
  unixTimestamp := visit.unixTimestamp

/-- The handshake of a visit over a v1 transport. -/
def Visit.course (visit : Visit Session) (peer : Peer) (configuration : ConnectionConfiguration) :
    Course Channel :=
  let party := visit.party peer configuration
  (Course.v1 codec party visit.incoming.reader.bytes).after (v1Medium codec) party.nonce
    visit.turns

variable {responder codec}

theorem accept_of_none {visit : Visit Session} {configuration : ConnectionConfiguration}
    (waits : (tcpAccept responder codec.magic visit.incoming
      configuration.transportPolicy).run = none) :
    (accept responder codec visit configuration).run = none := by
  simp only [accept, ExceptT.run_bind, waits]
  rfl

theorem accept_of_error {visit : Visit Session} {configuration : ConnectionConfiguration}
    {error : ConnectionError}
    (refused : (tcpAccept responder codec.magic visit.incoming
      configuration.transportPolicy).run = some (.error error)) :
    (accept responder codec visit configuration).run = some (.error error) := by
  simp only [accept, ExceptT.run_bind, refused]
  rfl

theorem accept_of_v1 (visit : Visit Session) {configuration : ConnectionConfiguration}
    {reader : BufReader} {peer : Peer} (whole : reader.bytes = visit.incoming.reader.bytes)
    (plain : (tcpAccept responder codec.magic visit.incoming
      configuration.transportPolicy).run = some (.ok (.v1 (.new codec.magic) reader, peer))) :
    (accept responder codec visit configuration).run =
      (visit.course codec peer configuration).call.result := by
  simp only [accept, ExceptT.run_bind, plain, Visit.course, ← whole]
  rfl

theorem accept_of_v2 {visit : Visit Session} {configuration : ConnectionConfiguration}
    {session : Session} {peer : Peer}
    (encrypted : (tcpAccept responder codec.magic visit.incoming
      configuration.transportPolicy).run = some (.ok (.v2 session, peer))) :
    (accept responder codec visit configuration).run =
      (visit.party peer configuration).start.drive (visit.party peer configuration).nonce
        (visit.responses session) := by
  simp only [accept, ExceptT.run_bind, encrypted]
  rfl

variable (responder) in
/-- A socket without failures whose first read shows the magic gets a v1 transport,
where that is allowed. -/
theorem tcpAccept_of_magic {magic : Magic} {segments : List (List UInt8)}
    (shows : ShowsMagic magic (segments.map .ok)) (address : SocketAddr) :
    ∃ reader : BufReader, reader.bytes = (Incoming.calm address segments).reader.bytes ∧
      (tcpAccept responder magic (.calm address segments) .v2Preferred).run =
        some (.ok (.v1 (.new magic) reader, peerFromSocketAddr address)) := by
  have returns : ¬ (Incoming.calm address segments).Waits magic := by
    rintro (silent | ⟨-, silent⟩) <;> cases silent
  obtain ⟨-, reader, whole, plain⟩ := negotiate_of_magic responder shows
  refine ⟨reader, whole, ?_⟩
  rw [tcpAccept_of_ok responder magic rfl rfl returns, Incoming.reader]
  exact congrArg (fun outcome => some (outcome.map (·, peerFromSocketAddr address))) plain

/-- How an inbound connection ended: without a transport, with the handshake over a
v2 session, or with the handshake over the bytes of the socket. -/
inductive Accepted (responder : List UInt8 → Option Session) (codec : Codec)
    (visit : Visit Session) (configuration : ConnectionConfiguration) :
    Except ConnectionError Connection → Prop where
  | refused {error : ConnectionError}
      (admitted : Admitted responder codec.magic visit.incoming configuration.transportPolicy
        (.error error)) :
      Accepted responder codec visit configuration (.error error)
  | encrypted {session : Session} {peer : Peer} {result : Except ConnectionError Connection}
      (admitted : Admitted responder codec.magic visit.incoming configuration.transportPolicy
        (.ok (.v2 session, peer)))
      (report : Report (visit.party peer configuration)
        ((visit.party peer configuration).start.events (visit.party peer configuration).nonce
          (visit.responses session)).1 (some result)) :
      Accepted responder codec visit configuration result
  | plain {reader : BufReader} {peer : Peer} {result : Except ConnectionError Connection}
      (admitted : Admitted responder codec.magic visit.incoming configuration.transportPolicy
        (.ok (.v1 (.new codec.magic) reader, peer)))
      (lenient : configuration.transportPolicy = .v2Preferred)
      (ended : (visit.course codec peer configuration).call.result = some result)
      (account : Account codec (visit.party peer configuration) visit.incoming.reader.bytes
        (visit.course codec peer configuration)) :
      Accepted responder codec visit configuration result

/-- What an inbound connection that has not ended waits for. -/
inductive Accepting (responder : List UInt8 → Option Session) (codec : Codec)
    (visit : Visit Session) (configuration : ConnectionConfiguration) : Prop where
  | admitting (admitting : Admitting codec.magic visit.incoming)
  | encrypted {session : Session} {peer : Peer}
      (admitted : Admitted responder codec.magic visit.incoming configuration.transportPolicy
        (.ok (.v2 session, peer)))
      (used : ((visit.party peer configuration).start.events
        (visit.party peer configuration).nonce (visit.responses session)).1.length =
          (visit.responses session).length)
      (unfinished : Unfinished (visit.party peer configuration)
        ((visit.party peer configuration).start.events (visit.party peer configuration).nonce
          (visit.responses session)).1)
  | plain {reader : BufReader} {peer : Peer}
      (admitted : Admitted responder codec.magic visit.incoming configuration.transportPolicy
        (.ok (.v1 (.new codec.magic) reader, peer)))
      (unfinished : Unfinished (visit.party peer configuration)
        (visit.course codec peer configuration).events)

end Accept

/-- `Connection::accept` on any socket. If it ends, it ends with the error that the
set-up of the transport met, with the handshake of a v2 session on the answers of
its transport, or, where v1 is allowed, with the handshake over the bytes of the
socket from the first one on. If it does not, the first read or the BIP-324
responder has not returned, or the handshake has met no failure and still waits. -/
theorem accept_outcome {Session : Type} (responder : List UInt8 → Option Session)
    (codec : Codec) (visit : Visit Session) (configuration : ConnectionConfiguration) :
    (∀ result, (accept responder codec visit configuration).run = some result →
      Accepted responder codec visit configuration result) ∧
    ((accept responder codec visit configuration).run = none →
      Accepting responder codec visit configuration) := by
  have admits := admits_tcpAccept responder codec.magic visit.incoming
    configuration.transportPolicy
  cases set : (tcpAccept responder codec.magic visit.incoming
      configuration.transportPolicy).run with
  | none =>
      rw [set] at admits
      rw [accept_of_none set]
      exact ⟨fun _ ended => absurd ended (by simp), fun _ => .admitting admits⟩
  | some outcome =>
      rw [set] at admits
      cases outcome with
      | error error =>
          rw [accept_of_error set]
          refine ⟨fun result ended => ?_, fun waits => by cases waits⟩
          cases ended
          exact .refused admits
      | ok pair =>
          obtain ⟨kind, peer⟩ := pair
          cases kind with
          | v2 session =>
              rw [accept_of_v2 set]
              refine ⟨fun result ended => ?_, fun waits => ?_⟩
              · have report := handshake_report (visit.party peer configuration)
                  (visit.responses session)
                rw [ended] at report
                exact .encrypted admits report
              · obtain ⟨used, unfinished⟩ := handshake_unfinished waits
                exact .encrypted admits used unfinished
          | v1 chosen reader =>
              obtain ⟨rfl, whole, lenient⟩ : chosen = .new codec.magic ∧
                  reader.bytes = visit.incoming.reader.bytes ∧
                  configuration.transportPolicy = .v2Preferred := by
                cases admits with
                | plain nodelay known arrives shows lenient whole => exact ⟨rfl, whole, lenient⟩
              rw [accept_of_v1 visit whole set]
              refine ⟨fun result ended => ?_, fun waits => ?_⟩
              · exact .plain admits lenient ended (account_after _ _ _ _)
              · exact .plain admits ((status_after _ _ _ _).unfinished waits)

/-- For a v1 peer whose first read shows the magic, the result of
`Connection::accept` depends on the bytes the peer sends: however they are cut
into reads, a socket without failures that brings the call to an end brings it to
the same one, and enough turns do. -/
theorem accept_determined {Session : Type} (responder : List UInt8 → Option Session)
    (codec : Codec) (visit : Visit Session) (configuration : ConnectionConfiguration)
    (lenient : configuration.transportPolicy = .v2Preferred) (address : SocketAddr)
    (stream : List UInt8) (starts : stream.take 4 = codec.magic.bytes) :
    ∃ events result,
      Report (visit.party (peerFromSocketAddr address) configuration) events (some result) ∧
      answersRead events = (replay codec.deserialize codec.magic stream
        (answersRead events).length).map Completion.result ∧
      ∀ (segmentation : Segmentation stream) (turns : List Turn),
        4 ≤ segmentation.first.length → (∀ turn ∈ turns, turn.Calm) →
        let accepted := (accept responder codec
          { visit with
            incoming := .calm address segmentation.segments
            turns := turns } configuration).run
        (accepted ≠ none ∨ enoughTurns stream ≤ turns.countP (Turn.prompt stream)) →
          accepted = some result := by
  obtain ⟨events, result, report, heard, determined⟩ := handshake_determined codec
    (visit.party (peerFromSocketAddr address) configuration) stream
  refine ⟨events, result, report, heard, ?_⟩
  intro segmentation turns whole calm accepted returns
  obtain ⟨reader, bytes, plain⟩ := tcpAccept_of_magic responder
    (segmentation.showsMagic whole starts) address
  rw [← lenient] at plain
  have same := accept_of_v1 { visit with
    incoming := .calm address segmentation.segments, turns := turns } bytes plain
  rw [Visit.course, Incoming.bytes_calm, segmentation.whole] at same
  change accepted = _ at same
  rw [same] at returns ⊢
  exact (determined turns calm returns).1

/-! ## A sample visit -/

/-- What a sample client sends: its version message and a verack. -/
def visitorStream : List UInt8 :=
  Wire.sampleCodec.encode (Wire.samples .right).greeting ++ Wire.sampleCodec.encode .verack

/-- A visit of the sample client from its own address. -/
def sampleVisit (segments : List (List UInt8)) (turns : List Turn) : Visit Unit where
  incoming := .calm (.v4 2 8333) segments
  nanoseconds := 5
  processId := 1
  unixTimestamp := 0
  turns := turns
  responses := fun _ => []

/-- The client closes its side inside the first header. -/
def shortVisit : Visit Unit :=
  sampleVisit [visitorStream.take 10] (List.replicate 2 (patientTurn (visitorStream.take 10)))

/-- The error of a connection that the peer has reset. -/
def connectionReset : IoError := ⟨.other 104, "Connection reset by peer (os error 104)"⟩

/-- The client resets the connection before it sends anything. -/
def resetVisit : Visit Unit :=
  { sampleVisit [] [] with
    incoming := ⟨.ok (), .ok (.v4 2 8333), [.error connectionReset], true, true⟩ }

/-- The client sends nothing. -/
def silentVisit : Visit Unit :=
  { sampleVisit [] [] with incoming := ⟨.ok (), .ok (.v4 2 8333), [], false, true⟩ }

theorem accept_outcome_short :
    ((accept (fun _ => none) Wire.sampleCodec shortVisit quietConfiguration).run =
        some (.error (.transportFailed (closedWhile "header"))) ∧
      ∃ peer, Account Wire.sampleCodec (shortVisit.party peer quietConfiguration)
        shortVisit.incoming.reader.bytes
        (shortVisit.course Wire.sampleCodec peer quietConfiguration)) ∧
    ((accept (fun _ => none) Wire.sampleCodec resetVisit quietConfiguration).run =
        some (.error (.io connectionReset)) ∧
      Accepted (fun _ => none) Wire.sampleCodec resetVisit quietConfiguration
        (.error (.io connectionReset))) ∧
    (accept (fun _ => none) Wire.sampleCodec silentVisit quietConfiguration).run = none ∧
      Accepting (fun _ => none) Wire.sampleCodec silentVisit quietConfiguration := by
  have ended : (accept (fun _ => none) Wire.sampleCodec shortVisit quietConfiguration).run =
      some (.error (.transportFailed (closedWhile "header"))) := rfl
  have reset : (accept (fun _ => none) Wire.sampleCodec resetVisit quietConfiguration).run =
      some (.error (.io connectionReset)) := rfl
  have silent : (accept (fun _ => none) Wire.sampleCodec silentVisit quietConfiguration).run =
      none := rfl
  refine ⟨⟨ended, ?_⟩, ⟨reset, (accept_outcome _ _ _ _).1 _ reset⟩, silent,
    (accept_outcome _ _ _ _).2 silent⟩
  cases (accept_outcome (fun _ => none) Wire.sampleCodec shortVisit quietConfiguration).1 _
      ended with
  | refused admitted => cases admitted
  | encrypted admitted report =>
      cases admitted with
      | encrypted nodelay known arrives asks responds agreed => cases agreed
  | plain admitted lenient ended account => exact ⟨_, account⟩

/-- The client's bytes in two reads, cut inside the version message. -/
def visitorCut : Segmentation visitorStream :=
  ⟨[visitorStream.take 30, visitorStream.drop 30], by decide +kernel, by
    rw [List.flatten_cons, List.flatten_singleton, List.take_append_drop]⟩

/-- The client's bytes in one read. -/
def visitorWhole : Segmentation visitorStream :=
  ⟨[visitorStream], by decide +kernel, List.flatten_singleton⟩

/-- Enough turns for the client's bytes. -/
def visitorTurns : List Turn :=
  List.replicate (enoughTurns visitorStream) (patientTurn visitorStream)

theorem accept_determined_visitor :
    ∃ result,
      (accept (fun _ => none) Wire.sampleCodec (sampleVisit visitorCut.segments visitorTurns)
        quietConfiguration).run = some result ∧
      (accept (fun _ => none) Wire.sampleCodec (sampleVisit visitorWhole.segments visitorTurns)
        quietConfiguration).run = some result := by
  obtain ⟨events, result, -, -, determined⟩ := accept_determined (fun _ => none) Wire.sampleCodec
    (sampleVisit [] []) quietConfiguration rfl (.v4 2 8333) visitorStream (by decide +kernel)
  have enough := patientTurn_prompt visitorStream
  have calm := patientTurn_calm visitorStream (enoughTurns visitorStream)
  exact ⟨result, determined visitorCut visitorTurns (by decide +kernel) calm (.inr enough),
    determined visitorWhole visitorTurns (by decide +kernel) calm (.inr enough)⟩

end BitcoinPeers.Connection

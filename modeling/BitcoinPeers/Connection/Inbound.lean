import BitcoinPeers.Connection.Tcp
import BitcoinPeers.Transport.Replay

/-!
Contract: inbound connections of `connection/src/connection/tcp.rs`.

Owns:
- the buffered reader as far as detection uses it: `fill_buf` makes at most one
  underlying read and consumes nothing;
- the choice of the transport for an inbound connection, for any reads of its
  socket, any of which may fail and the first of which may not return;
- when that choice does not depend on how the stream is cut into reads.

The BIP-324 responder is a parameter: its outcome on the bytes of the stream. The
network stands for its magic.

Does not own: the handshake over the transport.
-/

namespace BitcoinPeers

open BitcoinPeers.Transport

/-! ## The buffered reader -/

/-- A `BufReader` over a socket, with what its underlying reads are going to
return. -/
structure BufReader where
  buffered : List UInt8
  pending : List (Except IoError (List UInt8))

namespace BufReader

/-- A new reader over a stream that arrives in segments. -/
def new (segments : List (List UInt8)) : BufReader := ⟨[], segments.map .ok⟩

/-- The bytes that reads bring before one fails. -/
def arriving : List (Except IoError (List UInt8)) → List UInt8
  | .ok segment :: rest => segment ++ arriving rest
  | _ => []

/-- The bytes a consumer of the reader sees. -/
def bytes (reader : BufReader) : List UInt8 := reader.buffered ++ arriving reader.pending

/-- `fill_buf`: the buffered bytes, after one underlying read if there were
none. -/
def fillBuf (reader : BufReader) : Except IoError (List UInt8 × BufReader) :=
  if reader.buffered = [] then
    match reader.pending with
    | [] => .ok ([], reader)
    | .error error :: _ => .error error
    | .ok segment :: rest => .ok (segment, ⟨segment, rest⟩)
  else .ok (reader.buffered, reader)

/-- The reader after its first `fill_buf`. -/
def peeked (segments : List (List UInt8)) : BufReader :=
  ⟨segments.headD [], (segments.drop 1).map .ok⟩

theorem fillBuf_new (segments : List (List UInt8)) :
    (new segments).fillBuf = .ok (segments.headD [], peeked segments) := by
  cases segments <;> rfl

/-- Reads that succeed bring their segments. -/
theorem arriving_ok (segments : List (List UInt8)) :
    arriving (segments.map .ok) = segments.flatten := by
  induction segments with
  | nil => rfl
  | cons segment rest inductionHypothesis =>
      rw [List.map_cons, arriving, inductionHypothesis, List.flatten_cons]

/-- Peeking consumes nothing. -/
theorem bytes_peeked (segments : List (List UInt8)) :
    (peeked segments).bytes = segments.flatten := by
  rw [bytes, peeked, arriving_ok]
  cases segments <;> rfl

end BufReader

/-! ## Negotiation -/

/-- A negotiated inbound transport with the reader it owns. -/
inductive InboundTransport (Session : Type) where
  | v1 (transport : AsyncV1Transport) (reader : BufReader)
  | v2 (session : Session)

section Negotiation

variable {Session : Type} (responder : List UInt8 → Option Session) (magic : Magic)

def negotiateInboundTransport (reader : BufReader) (policy : TransportPolicy) :
    Except ConnectionError (InboundTransport Session) :=
  match reader.fillBuf with
  | .error error => .error (.io error)
  | .ok (peeked, reader) =>
      if 4 ≤ peeked.length ∧ peeked.take 4 = magic.bytes then
        match policy with
        | .v2Required => .error .v2TransportRequired
        | .v2Preferred => .ok (.v1 (.new magic) reader)
      else
        match responder reader.bytes with
        | some session => .ok (.v2 session)
        | none => .error (.transportFailed .encryption)

def peerFromSocketAddr : SocketAddr → Peer
  | .v4 ipv4 port => ⟨.ipv4 ipv4, port, .unknown, .unknown⟩
  | .v6 ipv6 port => ⟨.ipv6 ipv6, port, .unknown, .unknown⟩

/-- An accepted socket: what `set_nodelay` and `peer_addr` give, and what its reads
are going to return, up to the first that fails. A read that nothing arrives for,
or a responder that waits for more, does not return. -/
structure Incoming where
  nodelay : Except IoError Unit
  peerAddr : Except IoError SocketAddr
  reads : List (Except IoError (List UInt8))
  /-- The read of `fill_buf` returns. -/
  arrives : Bool
  /-- The BIP-324 responder returns. -/
  responds : Bool

namespace Incoming

/-- A socket without failures, by its peer and the reads that bring its stream. -/
def calm (peerAddr : SocketAddr) (segments : List (List UInt8)) : Incoming where
  nodelay := .ok ()
  peerAddr := .ok peerAddr
  reads := segments.map .ok
  arrives := true
  responds := true

/-- The buffered reader over the socket. -/
def reader (incoming : Incoming) : BufReader := ⟨[], incoming.reads⟩

/-- A socket without failures brings all its segments. -/
theorem bytes_calm (peerAddr : SocketAddr) (segments : List (List UInt8)) :
    (calm peerAddr segments).reader.bytes = segments.flatten := by
  rw [reader, BufReader.bytes, List.nil_append, calm, BufReader.arriving_ok]

end Incoming

/-- The first read shows the magic. -/
def ShowsMagic (magic : Magic) : List (Except IoError (List UInt8)) → Prop
  | .ok segment :: _ => 4 ≤ segment.length ∧ segment.take 4 = magic.bytes
  | _ => False

/-- The first read succeeds and does not show the magic: the responder is asked. -/
def AsksResponder (magic : Magic) : List (Except IoError (List UInt8)) → Prop
  | [] => True
  | .error _ :: _ => False
  | .ok segment :: _ => ¬ (4 ≤ segment.length ∧ segment.take 4 = magic.bytes)

instance (magic : Magic) : DecidablePred (AsksResponder magic)
  | [] => inferInstanceAs (Decidable True)
  | .error _ :: _ => inferInstanceAs (Decidable False)
  | .ok segment :: _ =>
      inferInstanceAs (Decidable (¬ (4 ≤ segment.length ∧ segment.take 4 = magic.bytes)))

/-- `negotiate_inbound_transport` waits: for the first read, or in the responder
when that is asked. -/
def Incoming.Waits (magic : Magic) (incoming : Incoming) : Prop :=
  incoming.arrives = false ∨ AsksResponder magic incoming.reads ∧ incoming.responds = false

instance (magic : Magic) (incoming : Incoming) : Decidable (incoming.Waits magic) :=
  inferInstanceAs (Decidable (_ ∨ _))

/-- What the first read can bring. -/
theorem first_cases (magic : Magic) (reads : List (Except IoError (List UInt8))) :
    (∃ error rest, reads = .error error :: rest) ∨ ShowsMagic magic reads ∨
      AsksResponder magic reads := by
  cases reads with
  | nil => exact .inr (.inr trivial)
  | cons first rest =>
      cases first with
      | error error => exact .inl ⟨error, rest, rfl⟩
      | ok segment => exact .inr (Decidable.em (4 ≤ segment.length ∧ segment.take 4 = magic.bytes))

variable {magic} in
/-- A first read that shows the magic gives a v1 transport that has all bytes, where
v1 is allowed. -/
theorem negotiate_of_magic {reads : List (Except IoError (List UInt8))}
    (shows : ShowsMagic magic reads) :
    negotiateInboundTransport responder magic ⟨[], reads⟩ .v2Required =
        .error .v2TransportRequired ∧
      ∃ reader : BufReader, reader.bytes = (BufReader.mk [] reads).bytes ∧
        negotiateInboundTransport responder magic ⟨[], reads⟩ .v2Preferred =
          .ok (.v1 (.new magic) reader) := by
  cases reads with
  | nil => exact shows.elim
  | cons first rest =>
      cases first with
      | error error => exact shows.elim
      | ok segment =>
          have detected : 4 ≤ segment.length ∧ segment.take 4 = magic.bytes := shows
          refine ⟨?_, ⟨segment, rest⟩, rfl, ?_⟩
          · simp only [negotiateInboundTransport, BufReader.fillBuf, if_pos, if_pos detected]
          · simp only [negotiateInboundTransport, BufReader.fillBuf, if_pos, if_pos detected]

variable {magic} in
/-- A first read without the magic leaves all bytes to the responder. -/
theorem negotiate_of_asks {reads : List (Except IoError (List UInt8))}
    (asks : AsksResponder magic reads) (policy : TransportPolicy) :
    negotiateInboundTransport responder magic ⟨[], reads⟩ policy =
      (responder (BufReader.mk [] reads).bytes).elim (.error (.transportFailed .encryption))
        (fun session => .ok (.v2 session)) := by
  cases reads with
  | nil =>
      have short : ¬ (4 ≤ ([] : List UInt8).length ∧ [].take 4 = magic.bytes) :=
        fun both => absurd both.1 (by decide)
      simp only [negotiateInboundTransport, BufReader.fillBuf, if_pos, if_neg short]
      cases responder (BufReader.mk [] []).bytes <;> rfl
  | cons first rest =>
      cases first with
      | error error => exact asks.elim
      | ok segment =>
          have other : ¬ (4 ≤ segment.length ∧ segment.take 4 = magic.bytes) := asks
          have same : (BufReader.mk segment rest).bytes =
              (BufReader.mk [] (.ok segment :: rest)).bytes := rfl
          simp only [negotiateInboundTransport, BufReader.fillBuf, if_pos, if_neg other, same]
          cases responder (BufReader.mk [] (.ok segment :: rest)).bytes <;> rfl

/-- `tcp::accept`. -/
def tcpAccept (incoming : Incoming) (policy : TransportPolicy) :
    Attempt (InboundTransport Session × Peer) := do
  ExceptT.mk (some (incoming.nodelay.mapError .io))
  let peerAddr ← ExceptT.mk (some (incoming.peerAddr.mapError .io))
  let peer := peerFromSocketAddr peerAddr
  let transport ← ExceptT.mk
    (if incoming.Waits magic then none
    else some (negotiateInboundTransport responder magic incoming.reader policy))
  return (transport, peer)

/-- Over a socket whose negotiation returns, the transport is the one negotiated,
and the peer is known by its address only. -/
theorem tcpAccept_of_ok {incoming : Incoming} {peerAddr : SocketAddr}
    (nodelay : incoming.nodelay = .ok ()) (known : incoming.peerAddr = .ok peerAddr)
    (returns : ¬ incoming.Waits magic) (policy : TransportPolicy) :
    (tcpAccept responder magic incoming policy).run =
      some ((negotiateInboundTransport responder magic incoming.reader policy).map
        (·, peerFromSocketAddr peerAddr)) := by
  simp only [tcpAccept, nodelay, known, if_neg returns]
  cases negotiateInboundTransport responder magic incoming.reader policy <;> rfl

/-- Over a socket whose negotiation waits, so does the call. -/
theorem tcpAccept_of_waits {incoming : Incoming} {peerAddr : SocketAddr}
    (nodelay : incoming.nodelay = .ok ()) (known : incoming.peerAddr = .ok peerAddr)
    (waits : incoming.Waits magic) (policy : TransportPolicy) :
    (tcpAccept responder magic incoming policy).run = none := by
  simp only [tcpAccept, nodelay, known, if_pos waits]
  rfl

/-! ## Segmentation -/

/-- A stream cut into non-empty reads. -/
structure Segmentation (stream : List UInt8) where
  segments : List (List UInt8)
  nonempty : ∀ segment ∈ segments, segment ≠ []
  whole : segments.flatten = stream

/-- What the first read brings. -/
def Segmentation.first {stream : List UInt8} (segmentation : Segmentation stream) : List UInt8 :=
  segmentation.segments.headD []

/-- What a caller gets: a v1 transport by its magic and the stream its reader
sees, or a v2 session. -/
inductive Negotiated (Session : Type) where
  | v1 (magic : Magic) (stream : List UInt8)
  | v2 (session : Session)
deriving DecidableEq

def InboundTransport.negotiated : InboundTransport Session → Negotiated Session
  | .v1 transport reader => .v1 transport.reader.networkMagic reader.bytes
  | .v2 session => .v2 session

/-- The outcome of negotiation on a stream cut into reads. -/
def outcome (policy : TransportPolicy) (segments : List (List UInt8)) :
    Except ConnectionError (Negotiated Session) :=
  (negotiateInboundTransport responder magic (.new segments) policy).map
    InboundTransport.negotiated

/-- The outcome for a stream that starts with the magic. -/
def v1Outcome (policy : TransportPolicy) (stream : List UInt8) :
    Except ConnectionError (Negotiated Session) :=
  match policy with
  | .v2Required => .error .v2TransportRequired
  | .v2Preferred => .ok (.v1 magic stream)

/-- The outcome for any other stream. -/
def v2Outcome (stream : List UInt8) : Except ConnectionError (Negotiated Session) :=
  match responder stream with
  | some session => .ok (.v2 session)
  | none => .error (.transportFailed .encryption)

/-- Two ways to cut a stream give one outcome, and on a stream that starts with
the magic it is the v1 outcome. -/
def SameOutcome (policy : TransportPolicy) {stream : List UInt8}
    (one other : Segmentation stream) : Prop :=
  outcome responder magic policy one.segments = outcome responder magic policy other.segments ∧
    (stream.take 4 = magic.bytes →
      outcome responder magic policy one.segments = v1Outcome magic policy stream)

variable {responder magic}

theorem Segmentation.first_prefix {stream : List UInt8} (segmentation : Segmentation stream) :
    segmentation.first <+: stream := by
  obtain ⟨segments, nonempty, rfl⟩ := segmentation
  cases segments with
  | nil => exact List.prefix_rfl
  | cons segment rest => exact List.prefix_append segment rest.flatten

/-- Detection looks at the first read only. -/
theorem outcome_eq (policy : TransportPolicy) {stream : List UInt8}
    (segmentation : Segmentation stream) :
    outcome responder magic policy segmentation.segments =
      if 4 ≤ segmentation.first.length ∧ segmentation.first.take 4 = magic.bytes then
        v1Outcome magic policy stream
      else v2Outcome responder stream := by
  have same := BufReader.bytes_peeked segmentation.segments
  rw [segmentation.whole] at same
  unfold outcome negotiateInboundTransport v1Outcome v2Outcome
  rw [BufReader.fillBuf_new]
  dsimp only
  unfold Segmentation.first
  split
  · cases policy with
    | v2Required => rfl
    | v2Preferred => exact congrArg (fun bytes => Except.ok (Negotiated.v1 magic bytes)) same
  · rw [same]
    cases responder stream <;> rfl

/-- A first read of four bytes shows what the stream starts with. -/
theorem Segmentation.take_first {stream : List UInt8} (segmentation : Segmentation stream)
    (enough : 4 ≤ segmentation.first.length) : segmentation.first.take 4 = stream.take 4 := by
  obtain ⟨rest, whole⟩ := segmentation.first_prefix
  have taken := congrArg (List.take 4) whole
  rw [List.take_append_of_le_length enough] at taken
  exact taken

/-- A first read of four bytes of a stream that starts with the magic shows it. -/
theorem Segmentation.showsMagic {stream : List UInt8} (segmentation : Segmentation stream)
    (enough : 4 ≤ segmentation.first.length) (starts : stream.take 4 = magic.bytes) :
    ShowsMagic magic (segmentation.segments.map .ok) := by
  have taken := segmentation.take_first enough
  rw [starts] at taken
  unfold Segmentation.first at enough taken
  cases segments : segmentation.segments with
  | nil =>
      rw [segments] at enough
      exact absurd enough (by decide)
  | cons segment rest =>
      rw [segments] at enough taken
      exact ⟨enough, taken⟩

/-- On a stream that does not start with the magic the responder decides. -/
theorem outcome_of_other (policy : TransportPolicy) {stream : List UInt8}
    (segmentation : Segmentation stream) (other : stream.take 4 ≠ magic.bytes) :
    outcome responder magic policy segmentation.segments = v2Outcome responder stream := by
  rw [outcome_eq, if_neg]
  rintro ⟨enough, starts⟩
  rw [segmentation.take_first enough] at starts
  exact other starts

/-- On a stream that starts with the magic the v1 outcome needs a first read of
four bytes. -/
theorem outcome_of_magic (policy : TransportPolicy) {stream : List UInt8}
    (segmentation : Segmentation stream) (starts : stream.take 4 = magic.bytes)
    (fails : responder stream = none) :
    outcome responder magic policy segmentation.segments = v1Outcome magic policy stream ↔
      4 ≤ segmentation.first.length := by
  rw [outcome_eq]
  constructor
  · intro detected
    by_contra short
    rw [if_neg (fun both => short both.1), v2Outcome, fails] at detected
    cases policy <;> cases detected
  · intro enough
    rw [if_pos ⟨enough, (segmentation.take_first enough).trans starts⟩]

end Negotiation

/-- Two ways to cut an inbound stream give the same outcome, the v1 outcome on a
stream that starts with the magic, exactly when such a stream has four bytes in
both first reads. -/
theorem inbound_detection_iff {Session : Type} (responder : List UInt8 → Option Session)
    (magic : Magic)
    (fails : ∀ bytes : List UInt8, bytes.take 4 = magic.bytes → responder bytes = none)
    (policy : TransportPolicy) (stream : List UInt8) (one other : Segmentation stream) :
    SameOutcome responder magic policy one other ↔
      (stream.take 4 = magic.bytes → 4 ≤ one.first.length ∧ 4 ≤ other.first.length) := by
  by_cases starts : stream.take 4 = magic.bytes
  · rw [← outcome_of_magic policy one starts (fails stream starts),
      ← outcome_of_magic policy other starts (fails stream starts)]
    constructor
    · rintro ⟨same, detected⟩ -
      exact ⟨detected starts, same ▸ detected starts⟩
    · intro both
      obtain ⟨left, right⟩ := both starts
      exact ⟨left.trans right.symm, fun _ => left⟩
  · refine iff_of_true ⟨?_, fun magical => absurd magical starts⟩
      fun magical => absurd magical starts
    rw [outcome_of_other policy one starts, outcome_of_other policy other starts]

/-! ## A split first read -/

/-- A `verack` frame in one read. -/
def verackWhole : Segmentation (verackFrame mainnet).bytes :=
  ⟨[(verackFrame mainnet).bytes], by decide, rfl⟩

/-- The same frame with its magic split over two reads. -/
def verackSplit : Segmentation (verackFrame mainnet).bytes :=
  ⟨[(verackFrame mainnet).bytes.take 2, (verackFrame mainnet).bytes.drop 2], by decide, rfl⟩

/-- The same frame cut inside its header, after the magic. -/
def verackCut : Segmentation (verackFrame mainnet).bytes :=
  ⟨[(verackFrame mainnet).bytes.take 10, (verackFrame mainnet).bytes.drop 10], by decide, rfl⟩

theorem inbound_detection_iff_whole :
    SameOutcome (fun _ => (none : Option Unit)) mainnet .v2Preferred verackWhole verackCut := by
  apply (inbound_detection_iff (fun _ => (none : Option Unit)) mainnet (fun _ _ => rfl)
    .v2Preferred _ verackWhole verackCut).mpr
  exact fun _ => ⟨by decide, by decide⟩

/-- The split frame is handed to the responder and refused; in one read it gives a
v1 transport. -/
theorem split_magic_refused :
    (verackFrame mainnet).bytes.take 4 = mainnet.bytes ∧
      outcome (fun _ => (none : Option Unit)) mainnet .v2Preferred verackSplit.segments =
        .error (.transportFailed .encryption) ∧
      outcome (fun _ => (none : Option Unit)) mainnet .v2Preferred verackWhole.segments =
        .ok (.v1 mainnet (verackFrame mainnet).bytes) ∧
      ¬ SameOutcome (fun _ => (none : Option Unit)) mainnet .v2Preferred verackSplit
        verackWhole := by
  have refused : outcome (fun _ => (none : Option Unit)) mainnet .v2Preferred
      verackSplit.segments = .error (.transportFailed .encryption) := by
    decide
  have detected : outcome (fun _ => (none : Option Unit)) mainnet .v2Preferred
      verackWhole.segments = .ok (.v1 mainnet (verackFrame mainnet).bytes) := by
    decide
  refine ⟨by decide, refused, detected, fun same => ?_⟩
  have equal := same.1
  rw [refused, detected] at equal
  cases equal

end BitcoinPeers

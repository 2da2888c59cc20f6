import BitcoinPeers.Connection.Conversation

/-!
Contract: one handshake over a v1 transport over one socket.

Owns:
- the handshake with the bytes it reads and writes, for any outcomes of the
  socket;
- that the messages it reads are those in front of the stream, and the bytes it
  sends the encodings of the messages it hands over.

Does not own: how the transport was negotiated.
-/

namespace BitcoinPeers.Connection

open BitcoinPeers.Foundation BitcoinPeers.Transport

/-! ## The socket -/

/-- What a socket does until a handshake is polled again: the outcome of the write
the handshake is at, or the underlying reads of its read. -/
structure Turn where
  write : WriteOutcome
  reads : List (Filling.Outcome IoError)

/-- The halves of a v1 transport, with the bytes their socket has for the reader
and the bytes it has taken from the writer. -/
structure Channel where
  reader : AsyncV1TransportReader
  writer : AsyncV1TransportWriter
  unread : List UInt8
  sink : List UInt8

namespace Channel

/-- The split transport of a new connection. -/
def ofTransport (transport : AsyncV1Transport) (stream : List UInt8) : Channel :=
  ⟨transport.intoSplit.1, transport.intoSplit.2, stream, []⟩

/-- The bytes that no read has returned. -/
def bytes (channel : Channel) : List UInt8 := channel.reader.receiveState.held ++ channel.unread

/-- Both halves are on the network of the codec. -/
def On (codec : Codec) (channel : Channel) : Prop :=
  channel.reader.networkMagic = codec.magic ∧ channel.writer.networkMagic = codec.magic

/-- `TransportWriter::write` of a v1 transport. -/
def write (codec : Codec) (channel : Channel) (message : NetworkMessage)
    (outcome : WriteOutcome) : Except TransportError Unit × Channel :=
  let written := channel.writer.write codec.serialize message outcome channel.sink
  (written.1.mapError .io, { channel with sink := written.2 })

/-- What a call of `read` answers, unless it still waits. -/
def answerOf : Call → Option (Except TransportError NetworkMessage)
  | .cancelled => none
  | .interrupted error => some (.error (.io error))
  | .finished result => some result

/-- `TransportReader::read` of a v1 transport. -/
def read (codec : Codec) (channel : Channel) (reads : List (Filling.Outcome IoError)) :
    Option (Except TransportError NetworkMessage) × Channel :=
  let called := readMessage codec.deserialize channel.reader.networkMagic
    channel.reader.receiveState channel.unread reads
  (answerOf called.call,
    { channel with reader.receiveState := called.state, unread := called.stream })

end Channel

/-- The v1 transport under a handshake. -/
def v1Medium (codec : Codec) : Medium Channel Turn where
  write channel message turn := channel.write codec message turn.write
  read channel turn := channel.read codec turn.reads

/-! ## The stream -/

/-- The completions up to a count and the next one. -/
theorem replay_concat (deserialize : Deserialize) (magic : Magic) (bytes : List UInt8)
    (count : Nat) :
    replay deserialize magic bytes (count + 1) =
      replay deserialize magic bytes count ++
        [front deserialize magic ((left deserialize magic)^[count] bytes)] := by
  induction count generalizing bytes with
  | zero => rfl
  | succ count inductionHypothesis =>
      rw [replay, inductionHypothesis, Function.iterate_succ_apply]
      rfl

/-- Every message in front of a stream takes a header of it. -/
theorem replay_ok_length {deserialize : Deserialize} {magic : Magic} {bytes : List UInt8}
    {messages : List NetworkMessage}
    (heard : (replay deserialize magic bytes messages.length).map Completion.result =
      messages.map .ok) : HEADER_SIZE * messages.length ≤ bytes.length := by
  induction messages generalizing bytes with
  | nil => exact Nat.zero_le _
  | cons message rest inductionHypothesis =>
      rw [List.length_cons, replay, List.map_cons, List.map_cons, List.cons.injEq] at heard
      obtain ⟨first, later⟩ := heard
      have bound := inductionHypothesis later
      rw [left, first] at bound
      unfold front at first bound
      cases cut : cutFrame bytes with
      | error part =>
          rw [cut] at first
          cases first
      | ok pair =>
          rw [cut] at bound
          obtain ⟨joined, whole⟩ := cutFrame_append cut
          have length := congrArg List.length joined
          rw [List.length_append] at length
          rw [List.length_cons, Nat.mul_succ]
          dsimp only at bound
          omega

/-- What a call of `read` does to a channel: it waits on the same bytes, it passes
on a failure of the socket, or it answers with what is in front of the bytes. -/
theorem Channel.read_cases {codec : Codec} {channel next : Channel} (on : channel.On codec)
    {reads : List (Filling.Outcome IoError)}
    {answer : Option (Except TransportError NetworkMessage)}
    (read : channel.read codec reads = (answer, next)) :
    next.On codec ∧ next.sink = channel.sink ∧
      (next.bytes = channel.bytes ∧
          (answer = none ∨
            ∃ error, answer = some (.error (.io error)) ∧ .failed error ∈ reads) ∨
        answer = some (front codec.deserialize codec.magic channel.bytes).result ∧
          next.bytes = left codec.deserialize codec.magic channel.bytes) := by
  unfold Channel.read at read
  rw [on.1] at read
  have followed := readMessage_follows codec.deserialize codec.magic channel.reader.receiveState
    channel.unread reads
  have kept := readMessage_keeps codec.deserialize codec.magic channel.reader.receiveState
    channel.unread reads
  have broken : ∀ error, (readMessage codec.deserialize codec.magic channel.reader.receiveState
      channel.unread reads).call = .interrupted error → .failed error ∈ reads :=
    fun error => mem_of_readMessage_interrupted
  generalize readMessage codec.deserialize codec.magic channel.reader.receiveState
    channel.unread reads = called at read followed kept broken
  obtain ⟨rfl, rfl⟩ := Prod.mk.inj read
  refine ⟨on, rfl, ?_⟩
  cases ending : called.call with
  | cancelled => exact .inl ⟨kept (by simp [ending]), .inl rfl⟩
  | interrupted error =>
      exact .inl ⟨kept (by simp [ending]), .inr ⟨error, rfl, broken error ending⟩⟩
  | finished result =>
      obtain ⟨completed, remaining⟩ := followed.front kept ending
      simp only [Called.completed, ending, List.cons.injEq, and_true] at completed
      exact .inr ⟨congrArg (fun completion : Completion => some completion.result) completed,
        remaining⟩

/-- A call of `read` without failing underlying reads waits, having used them all,
or answers with what is in front of the bytes. -/
theorem Channel.read_calm {codec : Codec} {channel next : Channel} (on : channel.On codec)
    {reads : List (Filling.Outcome IoError)}
    (ready : ∀ outcome ∈ reads, outcome.isReady = true)
    {answer : Option (Except TransportError NetworkMessage)}
    (read : channel.read codec reads = (answer, next)) :
    next.On codec ∧ next.unread.length ≤ channel.unread.length ∧
      (answer = none ∧ next.bytes = channel.bytes ∧ reads.length ≤ channel.unread.length ∨
        answer = some (front codec.deserialize codec.magic channel.bytes).result ∧
          next.bytes = left codec.deserialize codec.magic channel.bytes) := by
  obtain ⟨stays, -, cases⟩ := Channel.read_cases on read
  have shorter := readMessage_stream_length_le codec.deserialize channel.reader.networkMagic
    channel.reader.receiveState channel.unread reads
  unfold Channel.read at read
  obtain ⟨same, rfl⟩ := Prod.mk.inj read
  refine ⟨stays, shorter, ?_⟩
  rcases cases with ⟨kept, none | ⟨error, -, broken⟩⟩ | answered
  · refine .inl ⟨none, kept, Nat.le_of_not_lt fun enough => ?_⟩
    obtain ⟨result, ending⟩ := readMessage_finishes codec.deserialize channel.reader.networkMagic
      channel.reader.receiveState ready enough
    rw [ending, none] at same
    cases same
  · cases ready _ broken
  · exact .inr answered

/-- A write that succeeds sends the encoding, and one that fails a beginning of
it. -/
theorem Channel.write_cases {codec : Codec} {channel next : Channel} (on : channel.On codec)
    {message : NetworkMessage} {outcome : WriteOutcome} {answer : Except TransportError Unit}
    (written : channel.write codec message outcome = (answer, next)) :
    next.On codec ∧ next.bytes = channel.bytes ∧
      (answer = .ok () ∧ next.sink = channel.sink ++ codec.encode message ∨
        ∃ error torn, answer = .error error ∧ next.sink = channel.sink ++ torn ∧
          torn <+: codec.encode message) := by
  unfold Channel.write AsyncV1TransportWriter.write at written
  rw [on.2] at written
  cases sent : outcome.writeAll with
  | error cut =>
      simp only [sent] at written
      obtain ⟨rfl, rfl⟩ := Prod.mk.inj written
      exact ⟨on, rfl, .inr ⟨_, _, rfl, rfl, List.take_prefix _ _⟩⟩
  | ok _ =>
      simp only [sent] at written
      obtain ⟨rfl, rfl⟩ := Prod.mk.inj written
      refine ⟨on, rfl, ?_⟩
      cases outcome.flush with
      | ok _ => exact .inl ⟨rfl, rfl⟩
      | error error => exact .inr ⟨_, _, rfl, rfl, List.prefix_rfl⟩

/-! ## What a handshake has read and sent -/

section Account

variable (codec : Codec) (stream : List UInt8)

/-- Some messages are the first in front of the stream. -/
def InFront (messages : List NetworkMessage) : Prop :=
  (replay codec.deserialize codec.magic stream messages.length).map Completion.result =
    messages.map .ok

/-- What a handshake over a socket has read off the stream and sent: the last
message it handed over may have been sent in part, if a request failed. -/
structure Tracks (course : Course Channel) : Prop where
  on : course.channel.On codec
  front : InFront codec stream (consumed course.events)
  rest : (∀ event ∈ course.events, event.failure = none) → course.channel.bytes =
    (left codec.deserialize codec.magic)^[(consumed course.events).length] stream
  begun : codec.encodeAll (handed course.events.dropLast) <+: course.channel.sink
  sent : course.channel.sink <+: codec.encodeAll (handed course.events)
  whole : (∀ event ∈ course.events, event.failure = none) →
    course.channel.sink = codec.encodeAll (handed course.events)

variable {codec stream}

theorem handed_dropLast (codec : Codec) (events : List Event) :
    codec.encodeAll (handed events.dropLast) <+: codec.encodeAll (handed events) := by
  rcases List.eq_nil_or_concat events with rfl | ⟨init, final, rfl⟩
  · exact List.prefix_rfl
  · rw [List.concat_eq_append, List.dropLast_concat, handed_concat, Codec.encodeAll,
      Codec.encodeAll, List.map_append, List.flatten_append]
    exact List.prefix_append _ _

/-- A channel that has sent everything tracks the handshake. -/
theorem Tracks.of_sent {course : Course Channel} (on : course.channel.On codec)
    (front : InFront codec stream (consumed course.events))
    (rest : (∀ event ∈ course.events, event.failure = none) → course.channel.bytes =
      (left codec.deserialize codec.magic)^[(consumed course.events).length] stream)
    (sent : course.channel.sink = codec.encodeAll (handed course.events)) :
    Tracks codec stream course :=
  ⟨on, front, rest, sent ▸ handed_dropLast codec _, by rw [sent], fun _ => sent⟩

/-- A write adds its message, or a part of it and a failure. -/
theorem Tracks.wrote {course : Course Channel} (tracks : Tracks codec stream course)
    (smooth : ∀ event ∈ course.events, event.failure = none) {message : NetworkMessage}
    {outcome : WriteOutcome} {answer : Except TransportError Unit} {channel : Channel}
    (written : course.channel.write codec message outcome = (answer, channel))
    (call : Handshake) :
    Tracks codec stream ⟨course.events ++ [.wrote message answer], channel, call⟩ := by
  obtain ⟨stays, same, answers⟩ := Channel.write_cases tracks.on written
  have sent := tracks.whole smooth
  have front : InFront codec stream (consumed (course.events ++ [.wrote message answer])) := by
    rw [consumed_concat]
    exact (List.append_nil _).symm ▸ tracks.front
  have rest : channel.bytes = (left codec.deserialize codec.magic)^[(consumed
      (course.events ++ [.wrote message answer])).length] stream := by
    rw [consumed_concat, same, tracks.rest smooth]
    exact congrArg (fun read : List NetworkMessage => (left _ _)^[read.length] stream)
      (List.append_nil _).symm
  have more : codec.encodeAll (handed (course.events ++ [.wrote message answer])) =
      codec.encodeAll (handed course.events) ++ codec.encode message := by
    rw [handed_concat, Event.handed, Option.toList_some, Codec.encodeAll_concat]
  rcases answers with ⟨-, entire⟩ | ⟨error, torn, rfl, part, begins⟩
  · exact .of_sent stays front (fun _ => rest) (by rw [entire, sent, more])
  · refine ⟨stays, front, fun _ => rest, ?_, ?_, fun all => ?_⟩
    · rw [List.dropLast_concat, part, sent]
      exact List.prefix_append _ _
    · rw [more, part, sent]
      exact (List.prefix_append_right_inj _).mpr begins
    · cases all (.wrote message (.error error)) (List.mem_append_right _ List.mem_cons_self)

/-- A read takes the next message off the stream, or fails. -/
theorem Tracks.heard {course : Course Channel} (tracks : Tracks codec stream course)
    (smooth : ∀ event ∈ course.events, event.failure = none)
    {reads : List (Filling.Outcome IoError)} {answer : Except TransportError NetworkMessage}
    {channel : Channel} (read : course.channel.read codec reads = (some answer, channel))
    (call : Handshake) :
    Tracks codec stream ⟨course.events ++ [.heard answer], channel, call⟩ := by
  obtain ⟨stays, same, found⟩ := Channel.read_cases tracks.on read
  have rest := tracks.rest smooth
  have sent : channel.sink = codec.encodeAll (handed (course.events ++ [.heard answer])) := by
    rw [same, tracks.whole smooth, handed_concat]
    exact congrArg codec.encodeAll (List.append_nil _).symm
  cases answer with
  | error error =>
      refine .of_sent stays ?_ (fun all => ?_) sent
      · rw [consumed_concat]
        exact (List.append_nil _).symm ▸ tracks.front
      · cases all (.heard (.error error)) (List.mem_append_right _ List.mem_cons_self)
  | ok message =>
      obtain ⟨-, none | ⟨error, broken, -⟩⟩ | ⟨first, remaining⟩ := found
      · cases none
      · cases broken
      · have read : consumed (course.events ++ [.heard (.ok message)]) =
            consumed course.events ++ [message] := consumed_concat _ _
        refine .of_sent stays ?_ (fun _ => ?_) sent
        · rw [read, InFront, List.length_append, List.length_singleton, replay_concat, ← rest,
            List.map_append, List.map_append, tracks.front, List.map_singleton,
            ← Option.some.inj first]
          rfl
        · rw [read, List.length_append, List.length_singleton, Function.iterate_succ_apply',
            ← rest]
          exact remaining

theorem tracks_advances {party : Party} {course next : Course Channel}
    (status : Status party course) (tracks : Tracks codec stream course) {turn : Turn}
    (advances : course.Advances (v1Medium codec) party.nonce turn next) :
    Tracks codec stream next := by
  have smooth : ∀ {process}, course.call = .running process →
      ∀ event ∈ course.events, event.failure = none := by
    intro process position
    cases status with
    | follows follows passes asks => exact follows.smooth
    | failed failed =>
        obtain ⟨connection, error, ended⟩ := failed.returned
        exact absurd (ended.symm.trans position) (by simp)
  cases advances with
  | returned ended => exact tracks
  | tests position =>
      exact ⟨tracks.on, tracks.front, tracks.rest, tracks.begun, tracks.sent, tracks.whole⟩
  | waits position read =>
      obtain ⟨stays, same, ⟨kept, -⟩ | ⟨answered, -⟩⟩ := Channel.read_cases tracks.on read
      · exact .of_sent stays tracks.front (fun all => kept.trans (tracks.rest all))
          (same.trans (tracks.whole (smooth position)))
      · cases answered
  | wrote position written => exact tracks.wrote (smooth position) written _
  | heard position read => exact tracks.heard (smooth position) read _

/-- The start of a handshake over a v1 transport. -/
def Course.v1 (codec : Codec) (party : Party) (stream : List UInt8) : Course Channel :=
  .start party (.ofTransport (.new codec.magic) stream)

theorem tracks_start (codec : Codec) (party : Party) (stream : List UInt8) :
    Tracks codec stream (Course.v1 codec party stream) :=
  .of_sent ⟨rfl, rfl⟩ rfl (fun _ => rfl) rfl

/-- A handshake on any turns of its socket: what it has done, read and sent. -/
theorem tracks_after (codec : Codec) (party : Party) (stream : List UInt8) (turns : List Turn) :
    let course := (Course.v1 codec party stream).after (v1Medium codec) party.nonce turns
    Status party course ∧ Tracks codec stream course := by
  refine Course.after_induction (v1Medium codec)
    (motive := fun course => Status party course ∧ Tracks codec stream course) turns
    ⟨status_start party _, tracks_start codec party stream⟩ ?_
  intro turn _ here there both advances
  exact ⟨status_advances both.1 advances, tracks_advances both.1 both.2 advances⟩

/-- What a handshake over a socket has done: its report, the messages it has read
off the front of the stream, and the bytes it has sent. -/
structure Account (codec : Codec) (party : Party) (stream : List UInt8)
    (course : Course Channel) : Prop where
  report : Report party course.events course.call.result
  front : InFront codec stream (consumed course.events)
  begun : codec.encodeAll (handed course.events.dropLast) <+: course.channel.sink
  sent : course.channel.sink <+: codec.encodeAll (handed course.events)
  whole : (∀ event ∈ course.events, event.failure = none) →
    course.channel.sink = codec.encodeAll (handed course.events)

theorem account_after (codec : Codec) (party : Party) (stream : List UInt8) (turns : List Turn) :
    Account codec party stream
      ((Course.v1 codec party stream).after (v1Medium codec) party.nonce turns) := by
  obtain ⟨status, tracks⟩ := tracks_after codec party stream turns
  exact ⟨status.report, tracks.front, tracks.begun, tracks.sent, tracks.whole⟩

end Account

end BitcoinPeers.Connection

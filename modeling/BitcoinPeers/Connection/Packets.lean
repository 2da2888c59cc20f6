import BitcoinPeers.Connection.Script
import BitcoinPeers.Connection.Torn
import BitcoinPeers.Transport.V2

/-!
Contract: handshakes over a v2 transport, and that both transports serve a
handshake alike.

Owns:
- what a handshake over a BIP-324 session reads and sends, and that it ends when
  its messages come;
- the result of a handshake over either transport when its peer sends messages
  that decide it: the same, whatever comes after them.

Does not own: how the transport was negotiated, or a session that its peer leaves
before the handshake is decided.
-/

namespace BitcoinPeers.Connection

open BitcoinPeers.Foundation BitcoinPeers.Transport

/-! ## Sessions -/

/-- What a session does until its caller is polled again: whether it takes the
write the caller is at, and whether the next packet has arrived. -/
structure SessionTurn where
  written : Bool
  arrived : Bool

/-- The v2 transport under a handshake. -/
def v2Medium (serde : Serde) : Medium AsyncV2Transport SessionTurn where
  write transport message turn := transport.write serde message turn.written
  read transport turn := if turn.arrived then transport.read serde else (none, transport)

/-- The start of a handshake over a v2 transport. -/
def Course.v2 (party : Party) (incoming : List (Option (List UInt8))) : Course AsyncV2Transport :=
  .start party ⟨incoming, []⟩

section Session

variable (serde : Serde)

/-- What a handshake over a session that takes every write has read and sent. -/
structure SessionTracks (incoming : List (Option (List UInt8)))
    (course : Course AsyncV2Transport) : Prop where
  heard : answersRead course.events ++
      course.channel.incoming.map (AsyncV2Transport.message serde) =
    incoming.map (AsyncV2Transport.message serde)
  written : ∀ message error, .wrote message (.error error) ∉ course.events
  sent : course.channel.sink = (handed course.events).map serde.serialize

variable {serde}

theorem v2Medium_read {transport after : AsyncV2Transport} {turn : SessionTurn}
    {answer : Option (Except TransportError NetworkMessage)}
    (read : (v2Medium serde).read transport turn = (answer, after)) :
    answer = none ∧ after = transport ∧ (turn.arrived = true → transport.incoming = []) ∨
      ∃ packet, transport.incoming = packet :: after.incoming ∧
        answer = some (AsyncV2Transport.message serde packet) ∧ after.sink = transport.sink := by
  simp only [v2Medium, AsyncV2Transport.read] at read
  cases arrived : turn.arrived with
  | false =>
      simp only [arrived, Bool.false_eq_true, if_false] at read
      obtain ⟨rfl, rfl⟩ := Prod.mk.inj read
      exact .inl ⟨rfl, rfl, fun impossible => by cases impossible⟩
  | true =>
      simp only [arrived, if_true] at read
      cases pending : transport.incoming with
      | nil =>
          simp only [pending] at read
          obtain ⟨rfl, rfl⟩ := Prod.mk.inj read
          exact .inl ⟨rfl, rfl, fun _ => rfl⟩
      | cons packet rest =>
          simp only [pending] at read
          obtain ⟨rfl, rfl⟩ := Prod.mk.inj read
          exact .inr ⟨packet, rfl, rfl, rfl⟩

theorem sessionTracks_advances {incoming : List (Option (List UInt8))}
    {course after : Course AsyncV2Transport} {nonce : UInt64} {turn : SessionTurn}
    (tracks : SessionTracks serde incoming course) (taken : turn.written = true)
    (advances : course.Advances (v2Medium serde) nonce turn after) :
    SessionTracks serde incoming after := by
  obtain ⟨heard, written, sent⟩ := tracks
  cases advances with
  | returned ended => exact ⟨heard, written, sent⟩
  | tests position => exact ⟨heard, written, sent⟩
  | waits position read =>
      rcases v2Medium_read read with ⟨-, rfl, -⟩ | ⟨packet, -, answered, -⟩
      · exact ⟨heard, written, sent⟩
      · cases answered
  | @wrote connection message answered position answer transport wrote =>
      simp only [v2Medium, AsyncV2Transport.write, taken, if_true] at wrote
      obtain ⟨rfl, rfl⟩ := Prod.mk.inj wrote
      refine ⟨?_, fun other error member => ?_, ?_⟩
      · dsimp only
        rw [answersRead_concat, List.append_assoc]
        exact heard
      · rcases List.mem_append.mp member with old | new
        · exact written other error old
        · cases List.mem_singleton.mp new
      · dsimp only
        rw [handed_concat, List.map_append, sent]
        rfl
  | @heard connection answered position answer transport read =>
      rcases v2Medium_read read with ⟨none, -⟩ | ⟨packet, pending, first, same⟩
      · cases none
      · obtain rfl := Option.some.inj first
        refine ⟨?_, fun other error member => ?_, ?_⟩
        · dsimp only
          rw [answersRead_concat, List.append_assoc, ← heard, pending]
          rfl
        · rcases List.mem_append.mp member with old | new
          · exact written other error old
          · cases List.mem_singleton.mp new
        · dsimp only
          rw [handed_concat, same, sent]
          exact congrArg _ (List.append_nil _).symm

/-- A handshake over a session that takes every write: what it has done, read and
sent. -/
theorem session_after (serde : Serde) (party : Party) (incoming : List (Option (List UInt8)))
    {turns : List SessionTurn} (taken : ∀ turn ∈ turns, turn.written = true) :
    let course := (Course.v2 party incoming).after (v2Medium serde) party.nonce turns
    Status party course ∧ SessionTracks serde incoming course := by
  refine ⟨status_after _ _ _ _, ?_⟩
  apply Course.after_induction (v2Medium serde) turns
  · exact ⟨rfl, fun _ _ member => absurd member List.not_mem_nil, rfl⟩
  · intro turn member here there tracks advances
    exact sessionTracks_advances tracks (taken turn member) advances

/-! ## The end of a handshake over a session -/

variable {party : Party} {messages : List NetworkMessage} {more : List (Option (List UInt8))}
  {result : Except ConnectionError Connection}

/-- A session that gives the packets of some messages brings the messages. -/
theorem SessionTracks.begins {course : Course AsyncV2Transport}
    (tracks : SessionTracks serde (serde.contents messages ++ more) course)
    (inverse : ∀ message ∈ messages,
      serde.deserialize (serde.serialize message) = some message) :
    answersRead course.events <+:
      messages.map .ok ++ more.map (AsyncV2Transport.message serde) := by
  have heard := tracks.heard
  rw [List.map_append, AsyncV2Transport.map_message_contents inverse] at heard
  exact ⟨_, heard⟩

/-- A handshake that waits for a message has not read all of those that decide
it. -/
theorem SessionTracks.pending {course : Course AsyncV2Transport}
    (tracks : SessionTracks serde (serde.contents messages ++ more) course)
    (inverse : ∀ message ∈ messages,
      serde.deserialize (serde.serialize message) = some message)
    (decided : (party.transcriptOf messages).call.result = some result)
    (follows : Follows party course.events course.call) {connection : Connection}
    {answered : Answer .read →
      Process Connection Request Answer (Except ConnectionError HandshakeState)}
    (position : course.call = .running (.ask connection .read answered)) :
    course.channel.incoming ≠ [] := by
  intro nothing
  have heard := tracks.heard
  rw [List.map_append, AsyncV2Transport.map_message_contents inverse, nothing, List.map_nil,
    List.append_nil, answersRead_smooth follows.smooth] at heard
  have length := congrArg List.length heard
  rw [List.length_append, List.length_map, List.length_map] at length
  have longer : messages <+: consumed course.events := by
    have begins : (consumed course.events).map Except.ok <+:
        messages.map .ok ++ more.map (AsyncV2Transport.message serde) := by rw [heard]
    rcases begins_or_begins begins with shorter | longer
    · rw [shorter.eq_of_length_le (by omega)]
    · exact longer
  have waiting := follows.settles
  rw [position, transcriptOf_of_decided decided longer] at waiting
  rw [← waiting] at decided
  cases decided

/-- While the handshake runs, every turn with a packet adds an event. -/
theorem arrived_advances {course after : Course AsyncV2Transport} {turn : SessionTurn}
    (status : Status party course)
    (tracks : SessionTracks serde (serde.contents messages ++ more) course)
    (inverse : ∀ message ∈ messages,
      serde.deserialize (serde.serialize message) = some message)
    (decided : (party.transcriptOf messages).call.result = some result)
    (advances : course.Advances (v2Medium serde) party.nonce turn after)
    (running : after.call.result = none) :
    course.call.result = none ∧
      course.events.length + turn.arrived.toNat ≤ after.events.length := by
  have bit := Bool.toNat_le turn.arrived
  cases advances with
  | @returned connection result ended =>
      rw [ended] at running
      cases result <;> cases running
  | wrote position wrote =>
      refine ⟨by rw [position]; rfl, ?_⟩
      rw [List.length_append, List.length_singleton]
      omega
  | heard position read =>
      refine ⟨by rw [position]; rfl, ?_⟩
      rw [List.length_append, List.length_singleton]
      omega
  | tests position =>
      cases status with
      | follows follows passes asks =>
          rw [position] at asks
          exact asks.elim
      | failed failed =>
          obtain ⟨connection, error, ended⟩ := failed.returned
          exact absurd (ended.symm.trans position) (by simp)
  | waits position read =>
      rcases v2Medium_read read with ⟨-, rfl, nothing⟩ | ⟨packet, -, answered, -⟩
      · refine ⟨running, ?_⟩
        cases arrived : turn.arrived with
        | false => exact Nat.le_refl _
        | true =>
            cases status with
            | follows follows passes asks =>
                exact absurd (nothing arrived)
                  (tracks.pending inverse decided follows position)
            | failed failed =>
                obtain ⟨connection, error, ended⟩ := failed.returned
                exact absurd (ended.symm.trans position) (by simp)
      · cases answered

theorem arrived_le_events (inverse : ∀ message ∈ messages,
      serde.deserialize (serde.serialize message) = some message)
    (decided : (party.transcriptOf messages).call.result = some result)
    {turns : List SessionTurn} (taken : ∀ turn ∈ turns, turn.written = true) :
    let course := (Course.v2 party (serde.contents messages ++ more)).after (v2Medium serde)
      party.nonce turns
    course.call.result = none → turns.countP SessionTurn.arrived ≤ course.events.length := by
  induction turns using List.reverseRecOn with
  | nil => exact fun _ => Nat.le_refl _
  | append_singleton turns turn inductionHypothesis =>
      intro course running
      have takenTurns : ∀ earlier ∈ turns, earlier.written = true :=
        fun earlier member => taken earlier (List.mem_append_left _ member)
      have last : course = ((Course.v2 party (serde.contents messages ++ more)).after
          (v2Medium serde) party.nonce turns).advance (v2Medium serde) party.nonce turn :=
        List.foldl_concat ..
      rw [last] at running ⊢
      obtain ⟨status, tracks⟩ := session_after serde party (serde.contents messages ++ more)
        takenTurns
      obtain ⟨before, longer⟩ := arrived_advances status tracks inverse decided
        (Course.advances (v2Medium serde) party.nonce _ turn) running
      have earlier := inductionHypothesis takenTurns before
      have single : [turn].countP SessionTurn.arrived = turn.arrived.toNat := by
        cases arrived : turn.arrived <;> simp [arrived]
      rw [List.countP_append, single]
      exact (Nat.add_le_add_right earlier _).trans longer

/-- Enough packets bring a handshake over a session to its end. -/
theorem returns_of_arrived (inverse : ∀ message ∈ messages,
      serde.deserialize (serde.serialize message) = some message)
    (decided : (party.transcriptOf messages).call.result = some result)
    {turns : List SessionTurn} (taken : ∀ turn ∈ turns, turn.written = true)
    (enough : messages.length + 6 ≤ turns.countP SessionTurn.arrived) :
    ((Course.v2 party (serde.contents messages ++ more)).after (v2Medium serde) party.nonce
      turns).call.result ≠ none := by
  intro running
  have most := arrived_le_events inverse decided taken running
  obtain ⟨status, tracks⟩ := session_after serde party (serde.contents messages ++ more) taken
  cases status with
  | follows follows passes asks =>
      have few := follows.length_le
      have read := follows.read_le (tracks.begins inverse) decided
      omega
  | failed failed =>
      obtain ⟨connection, error, ended⟩ := failed.returned
      rw [ended] at running
      cases running

end Session

/-! ## Both transports -/

/-- A handshake that has made every write has sent it whole. -/
theorem Tracks.sent_of_written {codec : Codec} {party : Party} {stream : List UInt8}
    {course : Course Channel} (status : Status party course) (tracks : Tracks codec stream course)
    (written : ∀ message error, .wrote message (.error error) ∉ course.events) :
    course.channel.sink = codec.encodeAll (handed course.events) := by
  cases status with
  | follows follows passes asks => exact tracks.whole follows.smooth
  | failed failed =>
      obtain ⟨before, event, error, connection, split, smooth, cause, -⟩ := failed.failed
      cases event with
      | wrote message answer =>
          cases answer with
          | ok _ => cases cause
          | error other => exact absurd (by rw [split]; simp) (written message other)
      | heard answer =>
          have same : handed course.events.dropLast = handed course.events := by
            rw [split, List.dropLast_concat, handed_concat]
            exact (List.append_nil _).symm
          have begun := tracks.begun
          rw [same] at begun
          exact (begun.eq_of_length_le tracks.sent.length_le).symm

/-- Reads of a stream that starts with whole messages begin with these. -/
theorem replay_messages {codec : Codec} {messages : List NetworkMessage}
    (sound : ∀ message ∈ messages, codec.Sound message) (rest : List UInt8) (count : Nat) :
    ∃ others, (replay codec.deserialize codec.magic (codec.encodeAll messages ++ rest) count).map
      Completion.result <+: messages.map .ok ++ others := by
  induction messages generalizing count with
  | nil => exact ⟨_, by rw [List.map_nil, List.nil_append]⟩
  | cons message later inductionHypothesis =>
      cases count with
      | zero => exact ⟨[], List.nil_prefix⟩
      | succ count =>
          have first := (sound message List.mem_cons_self).front_cons later rest
          obtain ⟨others, begins⟩ := inductionHypothesis
            (fun other member => sound other (List.mem_cons_of_mem _ member)) count
          refine ⟨others, ?_⟩
          rw [replay, left, first, List.map_cons, List.map_cons, List.cons_append]
          exact (List.prefix_cons_inj _).mpr begins

/-- The end of a handshake over a v1 transport whose peer sends messages that
decide it. -/
theorem v1_decided {codec : Codec} (party : Party) {messages : List NetworkMessage}
    (sound : ∀ message ∈ messages, codec.Sound message)
    {result : Except ConnectionError Connection}
    (decided : (party.transcriptOf messages).call.result = some result) (rest : List UInt8)
    {turns : List Turn} (calm : ∀ turn ∈ turns, turn.Calm) :
    let stream := codec.encodeAll messages ++ rest
    let course := (Course.v1 codec party stream).after (v1Medium codec) party.nonce turns
    (course.call.result ≠ none ∨ enoughTurns stream ≤ turns.countP (Turn.prompt stream)) →
      course.call.result = some result ∧
        course.channel.sink = codec.encodeAll (party.transcriptOf messages).written := by
  intro stream course returns
  have finished : course.call.result ≠ none :=
    returns.elim id (returns_of_prompt codec party calm)
  obtain ⟨status, tracks⟩ := tracks_after codec party stream turns
  obtain ⟨count, script⟩ := script_of_calm codec party stream calm
  have point := script_at codec party stream count
  rw [← script] at point
  obtain ⟨others, begins⟩ := replay_messages sound rest (answersRead course.events).length
  have replayed : (replay codec.deserialize codec.magic (codec.encodeAll messages ++ rest)
      (answersRead course.events).length).map Completion.result = answersRead course.events :=
    point.heard.symm
  rw [replayed] at begins
  obtain ⟨same, spoken⟩ := status.decided point.written begins decided finished
  exact ⟨same, by rw [tracks.sent_of_written status point.written, spoken]⟩

/-- The end of a handshake over a v2 transport whose peer sends messages that
decide it. -/
theorem v2_decided {serde : Serde} (party : Party) {messages : List NetworkMessage}
    (inverse : ∀ message ∈ messages,
      serde.deserialize (serde.serialize message) = some message)
    {result : Except ConnectionError Connection}
    (decided : (party.transcriptOf messages).call.result = some result)
    (more : List (Option (List UInt8))) {turns : List SessionTurn}
    (taken : ∀ turn ∈ turns, turn.written = true) :
    let course := (Course.v2 party (serde.contents messages ++ more)).after (v2Medium serde)
      party.nonce turns
    (course.call.result ≠ none ∨ messages.length + 6 ≤ turns.countP SessionTurn.arrived) →
      course.call.result = some result ∧
        course.channel.sink = (party.transcriptOf messages).written.map serde.serialize := by
  intro course returns
  have finished : course.call.result ≠ none :=
    returns.elim id (returns_of_arrived inverse decided taken)
  obtain ⟨status, tracks⟩ := session_after serde party (serde.contents messages ++ more) taken
  obtain ⟨same, spoken⟩ := status.decided tracks.written (tracks.begins inverse) decided finished
  exact ⟨same, by rw [tracks.sent, spoken]⟩

/-- A peer sends messages that decide a handshake, and then anything or nothing.
Over both transports, however the network paces them, the handshake ends when
enough has come, it ends with the result of the messages, and it has sent what it
wrote. -/
theorem transports_transparent (codec : Codec) (serde : Serde) (party : Party)
    (messages : List NetworkMessage) (sound : ∀ message ∈ messages, codec.Sound message)
    (inverse : ∀ message ∈ messages,
      serde.deserialize (serde.serialize message) = some message)
    {result : Except ConnectionError Connection}
    (decided : (party.transcriptOf messages).call.result = some result) (rest : List UInt8)
    (more : List (Option (List UInt8))) :
    let stream := codec.encodeAll messages ++ rest
    let written := (party.transcriptOf messages).written
    (∀ turns : List Turn, (∀ turn ∈ turns, turn.Calm) →
      let course := (Course.v1 codec party stream).after (v1Medium codec) party.nonce turns
      (course.call.result ≠ none ∨ enoughTurns stream ≤ turns.countP (Turn.prompt stream)) →
        course.call.result = some result ∧ course.channel.sink = codec.encodeAll written) ∧
    ∀ turns : List SessionTurn, (∀ turn ∈ turns, turn.written = true) →
      let course := (Course.v2 party (serde.contents messages ++ more)).after (v2Medium serde)
        party.nonce turns
      (course.call.result ≠ none ∨ messages.length + 6 ≤ turns.countP SessionTurn.arrived) →
        course.call.result = some result ∧ course.channel.sink = written.map serde.serialize := by
  intro stream written
  constructor
  · intro turns calm course returns
    exact v1_decided party sound decided rest calm returns
  · intro turns taken course returns
    exact v2_decided party inverse decided more taken returns

/-! ## Two sample clients in a session -/

/-- The contents of a packet for a message without a short id, from the v1 frame
after its magic: a zero, the command and the payload. -/
def longContents (tail : List UInt8) : List UInt8 := 0 :: tail.take 12 ++ tail.drop 20

/-- The contents of the sample clients' packets. -/
def sampleSerde : Serde where
  serialize message :=
    (Wire.sampleTable.dropLast.find? fun row => row.1 == message).elim [] fun row =>
      longContents row.2
  deserialize contents :=
    (Wire.sampleTable.dropLast.find? fun row => longContents row.2 == contents).map Prod.fst

/-- The right client's part of the handshake. -/
def samplePart : List NetworkMessage :=
  [(Wire.samples .right).greeting, .sendAddrV2, .verack]

theorem samplePart_sound : ∀ message ∈ samplePart, Wire.sampleCodec.Sound message := by
  intro message member
  apply Wire.sampleCodec_sound
  revert message
  decide +kernel

theorem sampleSerde_inverse : ∀ message ∈ samplePart,
    sampleSerde.deserialize (sampleSerde.serialize message) = some message :=
  List.map_inj_left.mp rfl

/-- The connection that the right client's part makes. -/
def sampleConnection : Connection :=
  summary (Wire.samples .left).configuration (Wire.samples .left).peer samplePart

theorem samplePart_decides :
    ((Wire.samples .left).transcriptOf samplePart).call.result = some (.ok sampleConnection) :=
  rfl

/-- The left client's turns over a v1 transport: each brings all there is. -/
def sampleTurns (rest : List UInt8) : List Turn :=
  let stream := Wire.sampleCodec.encodeAll samplePart ++ rest
  List.replicate (enoughTurns stream) (patientTurn stream)

theorem transports_transparent_sample :
    ((Course.v1 Wire.sampleCodec (Wire.samples .left)
        (Wire.sampleCodec.encodeAll samplePart ++ [0xff])).after (v1Medium Wire.sampleCodec)
          (Wire.samples .left).nonce (sampleTurns [0xff])).call.result =
      some (.ok sampleConnection) ∧
    ((Course.v2 (Wire.samples .left) (sampleSerde.contents samplePart ++ [none])).after
        (v2Medium sampleSerde) (Wire.samples .left).nonce
          (List.replicate 9 ⟨true, true⟩)).call.result = some (.ok sampleConnection) := by
  obtain ⟨v1, v2⟩ := transports_transparent Wire.sampleCodec sampleSerde (Wire.samples .left)
    samplePart samplePart_sound sampleSerde_inverse samplePart_decides [0xff] [none]
  obtain ⟨plain, -⟩ := v1 (sampleTurns [0xff]) (patientTurn_calm _ _)
    (.inr (patientTurn_prompt _))
  obtain ⟨session, -⟩ := v2 (List.replicate 9 ⟨true, true⟩)
    (fun turn member => by rw [List.eq_of_mem_replicate member]) (.inr (by decide))
  exact ⟨plain, session⟩

end BitcoinPeers.Connection

import BitcoinPeers.Connection.Lifetime
import BitcoinPeers.Connection.Packets

/-!
Contract: a connection over a v1 transport in use, from its first byte on.

Owns:
- calls of `ConnectionReader::read` and `ConnectionWriter::write` on the halves
  of a connection, for any outcomes of the socket, with reads that are dropped
  anywhere they wait, also for the lock on the state;
- which messages of the stream the caller is given, and that the state has
  recorded those and no others.

A write that is dropped is one that fails here: its caller sees no answer.
-/

namespace BitcoinPeers.Connection

open BitcoinPeers.Foundation BitcoinPeers.Transport

/-! ## Calls on the halves -/

/-- A call on one of the halves, with what its socket does. A read without an
answer when its underlying reads end is dropped there; it may also be dropped while
it waits for the state. -/
inductive Use where
  | read (reads : List (Filling.Outcome IoError)) (dropped : Bool)
  | write (message : NetworkMessage) (outcome : WriteOutcome)

/-- The messages after which `ConnectionReader::read` locks the state. -/
def locksState : NetworkMessage → Bool
  | .sendAddrV2 => true
  | .sendHeaders => true
  | .wtxidRelay => true
  | _ => false

/-- A connection with what the calls on it have returned. -/
structure InUse where
  channel : Channel
  connection : Connection
  given : List (Except ConnectionError NetworkMessage)
  written : List (NetworkMessage × Except ConnectionError Unit)

namespace InUse

/-- `ConnectionReader::read`, until it returns or is dropped. -/
def read (codec : Codec) (here : InUse) (reads : List (Filling.Outcome IoError))
    (dropped : Bool) : Option (Except ConnectionError NetworkMessage) × InUse :=
  let read := here.channel.read codec reads
  match read.1 with
  | none => (none, { here with channel := read.2 })
  | some (.error error) =>
      (some (.error (.transportFailed error)),
        { here with
          channel := read.2
          given := here.given ++ [.error (.transportFailed error)] })
  | some (.ok message) =>
      if dropped && locksState message then (none, { here with channel := read.2 })
      else
        (some (.ok message),
          { here with
            channel := read.2
            connection :=
              leaves ((ConnectionReader.read here.connection).serve (answering message)).2
            given := here.given ++ [.ok message] })

/-- `ConnectionWriter::write`. -/
def write (codec : Codec) (here : InUse) (message : NetworkMessage) (outcome : WriteOutcome) :
    Except ConnectionError Unit × InUse :=
  let written := here.channel.write codec message outcome
  let answer := written.1.mapError .transportFailed
  (answer, { here with channel := written.2, written := here.written ++ [(message, answer)] })

def call (codec : Codec) (here : InUse) : Use → InUse
  | .read reads dropped => (here.read codec reads dropped).2
  | .write message outcome => (here.write codec message outcome).2

/-- The connection after some calls. -/
def after (codec : Codec) (here : InUse) (uses : List Use) : InUse := uses.foldl (call codec) here

/-- What a call does. -/
inductive Calls (codec : Codec) (here : InUse) : Use → InUse → Prop where
  | waited {reads : List (Filling.Outcome IoError)} {dropped : Bool} {channel : Channel}
      (read : here.channel.read codec reads = (none, channel)) :
      Calls codec here (.read reads dropped) { here with channel := channel }
  | failed {reads : List (Filling.Outcome IoError)} {dropped : Bool} {channel : Channel}
      {error : TransportError}
      (read : here.channel.read codec reads = (some (.error error), channel)) :
      Calls codec here (.read reads dropped)
        { here with channel := channel, given := here.given ++ [.error (.transportFailed error)] }
  | lost {reads : List (Filling.Outcome IoError)} {channel : Channel} {message : NetworkMessage}
      (read : here.channel.read codec reads = (some (.ok message), channel))
      (locks : locksState message = true) :
      Calls codec here (.read reads true) { here with channel := channel }
  | gave {reads : List (Filling.Outcome IoError)} {dropped : Bool} {channel : Channel}
      {message : NetworkMessage}
      (read : here.channel.read codec reads = (some (.ok message), channel)) :
      Calls codec here (.read reads dropped)
        { here with
          channel := channel
          connection :=
            leaves ((ConnectionReader.read here.connection).serve (answering message)).2
          given := here.given ++ [.ok message] }
  | wrote {message : NetworkMessage} {outcome : WriteOutcome} {channel : Channel}
      {answer : Except TransportError Unit}
      (written : here.channel.write codec message outcome = (answer, channel)) :
      Calls codec here (.write message outcome)
        { here with
          channel := channel
          written := here.written ++ [(message, answer.mapError .transportFailed)] }

theorem calls (codec : Codec) (here : InUse) (use : Use) :
    Calls codec here use (here.call codec use) := by
  cases use with
  | write message outcome => exact .wrote rfl
  | read reads dropped =>
      unfold call read
      cases answer : (here.channel.read codec reads).1 with
      | none =>
          simp only [answer]
          exact .waited (Prod.ext answer rfl)
      | some result =>
          cases result with
          | error error =>
              simp only [answer]
              exact .failed (Prod.ext answer rfl)
          | ok message =>
              simp only [answer]
              split
              next losing =>
                obtain ⟨rfl, locks⟩ := Bool.and_eq_true_iff.mp losing
                exact .lost (Prod.ext answer rfl) locks
              next keeping => exact .gave (Prod.ext answer rfl)

/-- A read keeps its answer with those before it, and writes nothing. -/
theorem read_answer (codec : Codec) (here : InUse) (reads : List (Filling.Outcome IoError))
    (dropped : Bool) :
    (here.read codec reads dropped).2.given =
        here.given ++ (here.read codec reads dropped).1.toList ∧
      (here.read codec reads dropped).2.written = here.written := by
  unfold read
  cases answer : (here.channel.read codec reads).1 with
  | none => simp [answer]
  | some result =>
      cases result with
      | error error => simp [answer]
      | ok message =>
          simp only [answer]
          split
          next => simp
          next => simp

end InUse

/-! ## Messages kept and lost -/

/-- The messages among some answers. -/
def messagesIn {Error : Type} (answers : List (Except Error NetworkMessage)) :
    List NetworkMessage := answers.filterMap Except.toOption

theorem messagesIn_concat {Error : Type} (answers : List (Except Error NetworkMessage))
    (answer : Except Error NetworkMessage) :
    messagesIn (answers ++ [answer]) = messagesIn answers ++ messagesIn [answer] :=
  List.filterMap_append

theorem messagesIn_ok {Error : Type} (messages : List NetworkMessage) :
    messagesIn (messages.map (Except.ok (ε := Error))) = messages := by
  unfold messagesIn
  induction messages with
  | nil => rfl
  | cons message rest inductionHypothesis =>
      rw [List.map_cons]
      exact congrArg (List.cons message) inductionHypothesis

/-- Of the messages heard some were kept, in order; only messages that lock the
state were lost. -/
structure Keeps (heard kept : List NetworkMessage) : Prop where
  order : kept.Sublist heard
  others : kept.filter (fun message => !locksState message) =
    heard.filter fun message => !locksState message

theorem Keeps.refl (messages : List NetworkMessage) : Keeps messages messages :=
  ⟨List.Sublist.refl _, rfl⟩

theorem Keeps.keep {heard kept : List NetworkMessage} (keeps : Keeps heard kept)
    (more : List NetworkMessage) : Keeps (heard ++ more) (kept ++ more) := by
  refine ⟨keeps.order.append_right more, ?_⟩
  rw [List.filter_append, List.filter_append, keeps.others]

theorem Keeps.lose {heard kept : List NetworkMessage} (keeps : Keeps heard kept)
    {message : NetworkMessage} (locks : locksState message = true) :
    Keeps (heard ++ [message]) kept := by
  refine ⟨keeps.order.trans (List.sublist_append_left _ _), ?_⟩
  rw [List.filter_append, keeps.others]
  simp [locks]

/-- What only other messages contribute is not lost. -/
theorem Keeps.flatMap {heard kept : List NetworkMessage} (keeps : Keeps heard kept)
    {Item : Type} {items : NetworkMessage → List Item}
    (silent : ∀ message, locksState message = true → items message = []) :
    heard.flatMap items = kept.flatMap items := by
  have others : ∀ messages : List NetworkMessage, messages.flatMap items =
      (messages.filter fun message => !locksState message).flatMap items := by
    intro messages
    induction messages with
    | nil => rfl
    | cons message rest inductionHypothesis =>
        rw [List.flatMap_cons, inductionHypothesis, List.filter_cons]
        cases locks : locksState message with
        | true => simp [silent message locks]
        | false => simp
  rw [others heard, others kept, keeps.others]

/-! ## The account of a connection -/

/-- The underlying reads of a call. -/
def Use.reads : Use → List (Filling.Outcome IoError)
  | .read reads _ => reads
  | .write _ _ => []

/-- The call is dropped if it waits for the state. -/
def Use.drops : Use → Bool
  | .read _ dropped => dropped
  | .write _ _ => false

/-- What a write has sent: its message, or a beginning of it if it failed. -/
def Carries (codec : Codec) (written : NetworkMessage × Except ConnectionError Unit)
    (piece : List UInt8) : Prop :=
  piece <+: codec.encode written.1 ∧ (written.2 = .ok () → piece = codec.encode written.1)

section Account

variable (codec : Codec) (stream : List UInt8)

/-- The messages among the first completions of the stream. -/
def messagesOf (count : Nat) : List NetworkMessage :=
  messagesIn ((replay codec.deserialize codec.magic stream count).map Completion.result)

/-- An error of a read is one of the socket or of a frame. -/
inductive Blamed (uses : List Use) (count : Nat) : ConnectionError → Prop where
  | socket {failure : IoError} {use : Use} (member : use ∈ uses)
      (failed : .failed failure ∈ use.reads) : Blamed uses count (.transportFailed (.io failure))
  | frame {cause : TransportError} {completion : Completion}
      (member : completion ∈ replay codec.deserialize codec.magic stream count)
      (rejected : completion.result = .error cause) : Blamed uses count (.transportFailed cause)

/-- What has become of a connection after `count` completions of its stream. -/
structure UseAccount (consumed : List NetworkMessage) (start : InUse) (uses : List Use)
    (count : Nat) (here : InUse) : Prop where
  on : here.channel.On codec
  bytes : here.channel.bytes = (left codec.deserialize codec.magic)^[count] stream
  /-- The messages of the stream, less some for which a call waited for the state. -/
  keeps : Keeps (messagesOf codec stream count) (consumed ++ messagesIn here.given)
  /-- If no call was dropped there, none is missing. -/
  whole : (∀ use ∈ uses, use.drops = false) →
    messagesOf codec stream count = consumed ++ messagesIn here.given
  /-- The state has recorded the messages given, and nothing else has changed. -/
  record : here.connection = { start.connection with
    state := (messagesIn here.given).foldl ConnectionState.onReceive start.connection.state }
  errors : ∀ error, .error error ∈ here.given → Blamed codec stream uses count error
  /-- The other direction carries what was written, whole or in part. -/
  sent : ∃ pieces, here.channel.sink = start.channel.sink ++ pieces.flatten ∧
    List.Forall₂ (Carries codec) here.written pieces

variable {codec stream} {uses : List Use} {count : Nat}

theorem messagesOf_succ (codec : Codec) (stream : List UInt8) (count : Nat) :
    messagesOf codec stream (count + 1) = messagesOf codec stream count ++
      messagesIn [(front codec.deserialize codec.magic
        ((left codec.deserialize codec.magic)^[count] stream)).result] := by
  rw [messagesOf, replay_concat, List.map_append, List.map_singleton, messagesIn_concat]
  rfl

theorem Blamed.later {error : ConnectionError} (blamed : Blamed codec stream uses count error)
    (use : Use) : Blamed codec stream (uses ++ [use]) count error := by
  cases blamed with
  | socket member failed => exact .socket (List.mem_append_left _ member) failed
  | frame member rejected => exact .frame member rejected

theorem Blamed.succ {error : ConnectionError} (blamed : Blamed codec stream uses count error) :
    Blamed codec stream uses (count + 1) error := by
  cases blamed with
  | socket member failed => exact .socket member failed
  | frame member rejected =>
      refine .frame ?_ rejected
      rw [replay_concat]
      exact List.mem_append_left _ member

namespace UseAccount

variable {consumed : List NetworkMessage} {start here there : InUse} {use : Use}

/-- A call without a completion. -/
theorem stays (account : UseAccount codec stream consumed start uses count here)
    {channel : Channel} (on : channel.On codec) (bytes : channel.bytes = here.channel.bytes)
    (sink : channel.sink = here.channel.sink) :
    UseAccount codec stream consumed start (uses ++ [use]) count
      { here with channel := channel } where
  on := on
  bytes := bytes.trans account.bytes
  keeps := account.keeps
  whole := fun none => account.whole fun earlier member =>
    none earlier (List.mem_append_left _ member)
  record := account.record
  errors := fun error member => (account.errors error member).later use
  sent := sink ▸ account.sent

/-- The caller is given an error. -/
theorem fails (account : UseAccount codec stream consumed start uses count here)
    {error : ConnectionError} (blamed : Blamed codec stream uses count error) :
    UseAccount codec stream consumed start uses count
      { here with given := here.given ++ [.error error] } := by
  have same : messagesIn (here.given ++ [.error error]) = messagesIn here.given := by
    rw [messagesIn_concat]
    exact List.append_nil _
  refine ⟨account.on, account.bytes, ?_, ?_, ?_, fun other member => ?_, account.sent⟩
  · rw [same]
    exact account.keeps
  · rw [same]
    exact account.whole
  · rw [same]
    exact account.record
  · rcases List.mem_append.mp member with old | new
    · exact account.errors other old
    · cases List.mem_singleton.mp new
      exact blamed

/-- The messages of one completion more. -/
theorem next_messages (account : UseAccount codec stream consumed start uses count here)
    {answer : Except TransportError NetworkMessage}
    (first : answer = (front codec.deserialize codec.magic here.channel.bytes).result) :
    messagesOf codec stream (count + 1) = messagesOf codec stream count ++ messagesIn [answer] := by
  rw [messagesOf_succ, ← account.bytes, first]

theorem next_bytes (account : UseAccount codec stream consumed start uses count here)
    {channel : Channel}
    (rest : channel.bytes = left codec.deserialize codec.magic here.channel.bytes) :
    channel.bytes = (left codec.deserialize codec.magic)^[count + 1] stream := by
  rw [rest, account.bytes, Function.iterate_succ_apply']

/-- A completion that is an error: a frame the reader rejects, or the end. -/
theorem rejects (account : UseAccount codec stream consumed start uses count here)
    {channel : Channel} (on : channel.On codec) {error : TransportError}
    (first : .error error = (front codec.deserialize codec.magic here.channel.bytes).result)
    (rest : channel.bytes = left codec.deserialize codec.magic here.channel.bytes)
    (sink : channel.sink = here.channel.sink) :
    UseAccount codec stream consumed start (uses ++ [use]) (count + 1)
      { here with
        channel := channel
        given := here.given ++ [.error (.transportFailed error)] } := by
  have same : messagesOf codec stream (count + 1) = messagesOf codec stream count :=
    (account.next_messages first).trans (List.append_nil _)
  have onward : UseAccount codec stream consumed start (uses ++ [use]) (count + 1)
      { here with channel := channel } :=
    { on := on
      bytes := account.next_bytes rest
      keeps := same ▸ account.keeps
      whole := fun none => same.trans (account.whole fun earlier member =>
        none earlier (List.mem_append_left _ member))
      record := account.record
      errors := fun other member => ((account.errors other member).later use).succ
      sent := sink ▸ account.sent }
  refine onward.fails (.frame ?_ first.symm)
  rw [replay_concat, ← account.bytes]
  exact List.mem_append_right _ List.mem_cons_self

/-- A message whose call is dropped while it waits for the state. -/
theorem loses (account : UseAccount codec stream consumed start uses count here)
    {channel : Channel} (on : channel.On codec) {message : NetworkMessage}
    (first : .ok message = (front codec.deserialize codec.magic here.channel.bytes).result)
    (rest : channel.bytes = left codec.deserialize codec.magic here.channel.bytes)
    (sink : channel.sink = here.channel.sink) (locks : locksState message = true)
    (drops : use.drops = true) :
    UseAccount codec stream consumed start (uses ++ [use]) (count + 1)
      { here with channel := channel } where
  on := on
  bytes := account.next_bytes rest
  keeps := (account.next_messages first) ▸ account.keeps.lose locks
  whole := by
    intro none
    rw [none use (List.mem_append_right _ List.mem_cons_self)] at drops
    cases drops
  record := account.record
  errors := fun error member => ((account.errors error member).later use).succ
  sent := sink ▸ account.sent

/-- A message that is given to the caller. -/
theorem gives (account : UseAccount codec stream consumed start uses count here)
    {channel : Channel} (on : channel.On codec) {message : NetworkMessage}
    (first : .ok message = (front codec.deserialize codec.magic here.channel.bytes).result)
    (rest : channel.bytes = left codec.deserialize codec.magic here.channel.bytes)
    (sink : channel.sink = here.channel.sink) :
    UseAccount codec stream consumed start (uses ++ [use]) (count + 1)
      { here with
        channel := channel
        connection := leaves ((ConnectionReader.read here.connection).serve (answering message)).2
        given := here.given ++ [.ok message] } := by
  have more : messagesIn (here.given ++ [.ok message]) = messagesIn here.given ++ [message] :=
    messagesIn_concat _ _
  have heard : messagesOf codec stream (count + 1) =
      messagesOf codec stream count ++ [message] := account.next_messages first
  refine ⟨on, account.next_bytes rest, ?_, fun none => ?_, ?_, fun error member => ?_,
    sink ▸ account.sent⟩
  · rw [heard, more, ← List.append_assoc]
    exact account.keeps.keep [message]
  · have before := account.whole fun earlier member => none earlier (List.mem_append_left _ member)
    rw [heard, more, ← List.append_assoc, before]
  · rw [more, List.foldl_append, account.record]
    rfl
  · rcases List.mem_append.mp member with old | new
    · exact ((account.errors error old).later use).succ
    · cases List.mem_singleton.mp new

theorem writes (account : UseAccount codec stream consumed start uses count here)
    {channel : Channel} {message : NetworkMessage} {outcome : WriteOutcome}
    {answer : Except TransportError Unit}
    (written : here.channel.write codec message outcome = (answer, channel)) :
    UseAccount codec stream consumed start (uses ++ [use]) count
      { here with
        channel := channel
        written := here.written ++ [(message, answer.mapError .transportFailed)] } := by
  obtain ⟨on, bytes, sunk⟩ := Channel.write_cases account.on written
  obtain ⟨pieces, sink, carried⟩ := account.sent
  refine ⟨on, bytes.trans account.bytes, account.keeps, fun none => ?_, account.record,
    fun error member => (account.errors error member).later use, ?_⟩
  · exact account.whole fun earlier member => none earlier (List.mem_append_left _ member)
  · obtain ⟨piece, grown, carries⟩ : ∃ piece, channel.sink = here.channel.sink ++ piece ∧
        Carries codec (message, answer.mapError .transportFailed) piece := by
      rcases sunk with ⟨rfl, whole⟩ | ⟨error, torn, rfl, part, begins⟩
      · exact ⟨_, whole, List.prefix_rfl, fun _ => rfl⟩
      · exact ⟨torn, part, begins, fun success => by cases success⟩
    refine ⟨pieces ++ [piece], ?_, List.rel_append carried (.cons carries .nil)⟩
    dsimp only
    rw [grown, sink, List.append_assoc, List.flatten_append, List.flatten_singleton]

/-- One call. -/
theorem called (account : UseAccount codec stream consumed start uses count here)
    (calls : InUse.Calls codec here use there) :
    ∃ more, UseAccount codec stream consumed start (uses ++ [use]) more there := by
  cases calls with
  | wrote written => exact ⟨count, account.writes written⟩
  | waited read =>
      obtain ⟨on, sink, ⟨bytes, -⟩ | ⟨answered, -⟩⟩ := Channel.read_cases account.on read
      · exact ⟨count, account.stays on bytes sink⟩
      · cases answered
  | @failed reads dropped channel error read =>
      obtain ⟨on, sink, ⟨bytes, none | ⟨failure, same, member⟩⟩ | ⟨first, rest⟩⟩ :=
        Channel.read_cases account.on read
      · cases none
      · cases same
        have broken : .failed failure ∈ (Use.read reads dropped).reads := member
        refine ⟨count, (account.stays on bytes sink).fails (.socket ?_ broken)⟩
        exact List.mem_append_right _ List.mem_cons_self
      · exact ⟨count + 1, account.rejects on (Option.some.inj first) rest sink⟩
  | lost read locks =>
      obtain ⟨on, sink, ⟨-, none | ⟨failure, same, -⟩⟩ | ⟨first, rest⟩⟩ :=
        Channel.read_cases account.on read
      · cases none
      · cases same
      · exact ⟨count + 1, account.loses on (Option.some.inj first) rest sink locks rfl⟩
  | gave read =>
      obtain ⟨on, sink, ⟨-, none | ⟨failure, same, -⟩⟩ | ⟨first, rest⟩⟩ :=
        Channel.read_cases account.on read
      · cases none
      · cases same
      · exact ⟨count + 1, account.gives on (Option.some.inj first) rest sink⟩

theorem after (account : UseAccount codec stream consumed start [] count start)
    (uses : List Use) :
    ∃ more, UseAccount codec stream consumed start uses more (start.after codec uses) := by
  induction uses using List.reverseRecOn with
  | nil => exact ⟨count, account⟩
  | append_singleton uses use inductionHypothesis =>
      obtain ⟨more, earlier⟩ := inductionHypothesis
      have last : start.after codec (uses ++ [use]) = (start.after codec uses).call codec use :=
        List.foldl_concat ..
      rw [last]
      exact earlier.called (InUse.calls codec _ use)

/-- A call that is not dropped returns what is in front of the stream. -/
theorem answers (account : UseAccount codec stream consumed start uses count here)
    {reads : List (Filling.Outcome IoError)}
    (ready : ∀ outcome ∈ reads, outcome.isReady = true)
    (enough : here.channel.unread.length < reads.length) :
    (here.call codec (.read reads false)).given = here.given ++
      [((front codec.deserialize codec.magic
        ((left codec.deserialize codec.magic)^[count] stream)).result).mapError
          .transportFailed] := by
  rw [← account.bytes]
  have calls := InUse.calls codec here (.read reads false)
  generalize InUse.call codec here (.read reads false) = there at calls
  cases calls with
  | waited read =>
      obtain ⟨-, -, ⟨-, -, few⟩ | ⟨answered, -⟩⟩ := Channel.read_calm account.on ready read
      · omega
      · cases answered
  | failed read =>
      obtain ⟨-, -, ⟨none, -⟩ | ⟨first, -⟩⟩ := Channel.read_calm account.on ready read
      · cases none
      · rw [← Option.some.inj first]
        rfl
  | gave read =>
      obtain ⟨-, -, ⟨none, -⟩ | ⟨first, -⟩⟩ := Channel.read_calm account.on ready read
      · cases none
      · rw [← Option.some.inj first]
        rfl

end UseAccount

/-- A handshake that has succeeded leaves the stream after the messages it read. -/
theorem useAccount_start (codec : Codec) (party : Party) (stream : List UInt8)
    (turns : List Turn) {connection : Connection}
    (completed : ((Course.v1 codec party stream).after (v1Medium codec) party.nonce
      turns).call.result = some (.ok connection)) :
    let course := (Course.v1 codec party stream).after (v1Medium codec) party.nonce turns
    let start : InUse := ⟨course.channel, connection, [], []⟩
    UseAccount codec stream (consumed course.events) start []
      (consumed course.events).length start := by
  intro course start
  obtain ⟨status, tracks⟩ := tracks_after codec party stream turns
  have smooth : ∀ event ∈ course.events, event.failure = none := by
    cases status with
    | follows follows passes asks => exact follows.smooth
    | failed failed =>
        obtain ⟨other, error, ended⟩ := failed.returned
        rw [ended] at completed
        cases completed
  have heard : messagesOf codec stream (consumed course.events).length =
      consumed course.events := by
    have front : InFront codec stream (consumed course.events) := tracks.front
    rw [messagesOf, front, messagesIn_ok]
  refine ⟨tracks.on, tracks.rest smooth, ?_, fun _ => ?_, rfl, fun _ member => ?_, [], ?_, .nil⟩
  · rw [heard]
    exact (List.append_nil _).symm ▸ .refl _
  · rw [heard]
    exact (List.append_nil _).symm
  · cases member
  · exact (List.append_nil _).symm

end Account

/-- A connection made over a v1 transport, under any calls on its halves: the
handshake and the caller have been given the messages of the stream in order, but
for messages whose read was dropped while it waited for the state, and these are
feature messages; the state has recorded what was given; and the next read that is
not dropped returns what is in front of the rest. -/
theorem connection_use_account (codec : Codec) (party : Party) (stream : List UInt8)
    (turns : List Turn) (uses : List Use) {connection : Connection}
    (completed : ((Course.v1 codec party stream).after (v1Medium codec) party.nonce
      turns).call.result = some (.ok connection)) :
    let course := (Course.v1 codec party stream).after (v1Medium codec) party.nonce turns
    let start : InUse := ⟨course.channel, connection, [], []⟩
    let here := start.after codec uses
    ∃ count, UseAccount codec stream (consumed course.events) start uses count here ∧
      ∀ reads : List (Filling.Outcome IoError), (∀ outcome ∈ reads, outcome.isReady = true) →
        here.channel.unread.length < reads.length →
          (here.call codec (.read reads false)).given = here.given ++
            [((front codec.deserialize codec.magic
              ((left codec.deserialize codec.magic)^[count] stream)).result).mapError
                .transportFailed] := by
  intro course start here
  obtain ⟨count, account⟩ := (useAccount_start codec party stream turns completed).after uses
  exact ⟨count, account, fun reads ready enough => account.answers ready enough⟩

/-! ## A lost feature message -/

/-- The right client's part, and two messages after it. -/
def longPart : List NetworkMessage := samplePart ++ [.sendHeaders, .ping 42]

def longStream : List UInt8 := Wire.sampleCodec.encodeAll longPart

/-- The left client's handshake. -/
def longCourse : Course Channel :=
  (Course.v1 Wire.sampleCodec (Wire.samples .left) longStream).after (v1Medium Wire.sampleCodec)
    (Wire.samples .left).nonce
    (List.replicate (enoughTurns longStream) (patientTurn longStream))

/-- The connection that the handshake makes; the two messages have no part in it. -/
def longConnection : Connection := sampleConnection

/-- The first read is dropped while it waits for the state. -/
def losingUses : List Use :=
  [.read (List.replicate (longStream.length + 1) (.ready 0)) true,
    .read (List.replicate (longStream.length + 1) (.ready 0)) false]

theorem longCourse_result : longCourse.call.result = some (.ok longConnection) := by
  have sound : ∀ message ∈ longPart, Wire.sampleCodec.Sound message := by
    intro message member
    apply Wire.sampleCodec_sound
    revert message
    decide +kernel
  have decided : ((Wire.samples .left).transcriptOf longPart).call.result =
      some (.ok longConnection) := rfl
  have whole : Wire.sampleCodec.encodeAll longPart ++ [] = longStream := List.append_nil _
  have result := v1_decided (Wire.samples .left) sound decided []
    (patientTurn_calm longStream (enoughTurns longStream))
  rw [whole] at result
  exact (result (.inr (patientTurn_prompt longStream))).1

/-- The connection with the messages given. -/
def losingEnd : InUse :=
  InUse.after Wire.sampleCodec ⟨longCourse.channel, longConnection, [], []⟩ losingUses

theorem losingEnd_given : messagesIn losingEnd.given = [.ping 42] := by decide +kernel

theorem connection_use_account_losing :
    messagesIn losingEnd.given = [.ping 42] ∧
      ∃ count, Keeps (messagesOf Wire.sampleCodec longStream count)
        (consumed longCourse.events ++ messagesIn losingEnd.given) := by
  have completed := longCourse_result
  refine ⟨losingEnd_given, ?_⟩
  unfold losingEnd
  unfold longCourse at completed ⊢
  obtain ⟨count, account, -⟩ := connection_use_account Wire.sampleCodec (Wire.samples .left)
    longStream _ losingUses completed
  exact ⟨count, account.keeps⟩

end BitcoinPeers.Connection

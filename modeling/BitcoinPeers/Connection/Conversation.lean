import BitcoinPeers.Connection.Failure
import BitcoinPeers.Connection.WireTermination

/-!
Contract: one handshake over one transport, whatever the transport is.

Owns:
- a transport as its two operations, and the handshake that uses them as the
  network lets it;
- that in every state the handshake follows the transcript of what it has read,
  or has failed with its last request;
- what a handshake that has not returned still waits for;
- the result of a handshake that is sent messages which decide it.

Does not own: what a transport does with bytes.
-/

namespace BitcoinPeers.Connection

open BitcoinPeers.Foundation

/-! ## Transports -/

/-- The operations of a transport, as `Transport` offers them: one call, on what
the network does until the caller is polled again. A read that still waits has no
answer. -/
structure Medium (Channel Turn : Type) where
  write : Channel → NetworkMessage → Turn → Except TransportError Unit × Channel
  read : Channel → Turn → Option (Except TransportError NetworkMessage) × Channel

/-- A handshake at some point: what it has done, the transport and the call. -/
structure Course (Channel : Type) where
  events : List Event
  channel : Channel
  call : Handshake

namespace Course

variable {Channel Turn : Type} (medium : Medium Channel Turn)

/-- A new connection over a transport. -/
def start (party : Party) (channel : Channel) : Course Channel := ⟨[], channel, party.start⟩

def advance (nonce : UInt64) (course : Course Channel) (turn : Turn) : Course Channel :=
  match course.call with
  | .returned _ _ => course
  | .running (.ask _ (.write message) answered) =>
      let written := medium.write course.channel message turn
      ⟨course.events ++ [.wrote message written.1], written.2,
        .resume nonce (answered written.1)⟩
  | .running (.ask _ .read answered) =>
      let read := medium.read course.channel turn
      match read.1 with
      | none => { course with channel := read.2 }
      | some answer =>
          ⟨course.events ++ [.heard answer], read.2, .resume nonce (answered answer)⟩
  | .running (.done connection outcome) =>
      { course with call := .resume nonce (.done connection outcome) }

/-- The handshake after some turns of the network. -/
def after (nonce : UInt64) (course : Course Channel) (turns : List Turn) : Course Channel :=
  turns.foldl (advance medium nonce) course

/-- What one turn does. -/
inductive Advances (nonce : UInt64) (course : Course Channel) (turn : Turn) :
    Course Channel → Prop where
  | returned {connection : Connection} {result : Except ConnectionError Unit}
      (ended : course.call = .returned connection result) : Advances nonce course turn course
  | wrote {connection : Connection} {message : NetworkMessage}
      {answered : Answer (.write message) →
        Process Connection Request Answer (Except ConnectionError HandshakeState)}
      (position : course.call = .running (.ask connection (.write message) answered))
      {answer : Except TransportError Unit} {channel : Channel}
      (written : medium.write course.channel message turn = (answer, channel)) :
      Advances nonce course turn ⟨course.events ++ [.wrote message answer], channel,
        .resume nonce (answered answer)⟩
  | waits {connection : Connection}
      {answered : Answer .read →
        Process Connection Request Answer (Except ConnectionError HandshakeState)}
      (position : course.call = .running (.ask connection .read answered)) {channel : Channel}
      (read : medium.read course.channel turn = (none, channel)) :
      Advances nonce course turn { course with channel := channel }
  | heard {connection : Connection}
      {answered : Answer .read →
        Process Connection Request Answer (Except ConnectionError HandshakeState)}
      (position : course.call = .running (.ask connection .read answered))
      {answer : Except TransportError NetworkMessage} {channel : Channel}
      (read : medium.read course.channel turn = (some answer, channel)) :
      Advances nonce course turn ⟨course.events ++ [.heard answer], channel,
        .resume nonce (answered answer)⟩
  | tests {connection : Connection} {outcome : Except ConnectionError HandshakeState}
      (position : course.call = .running (.done connection outcome)) :
      Advances nonce course turn { course with call := .resume nonce (.done connection outcome) }

theorem advances (nonce : UInt64) (course : Course Channel) (turn : Turn) :
    course.Advances medium nonce turn (course.advance medium nonce turn) := by
  unfold advance
  cases position : course.call with
  | returned connection result => exact .returned position
  | running process =>
      cases process with
      | done connection outcome => exact .tests position
      | ask connection request answered =>
          cases request with
          | write message => exact .wrote position rfl
          | read =>
              dsimp only
              cases answer : (medium.read course.channel turn).1 with
              | none =>
                  have waiting : course.Advances medium nonce turn
                      { course with channel := (medium.read course.channel turn).2 } :=
                    .waits position (Prod.ext answer rfl)
                  rw [position] at waiting
                  exact waiting
              | some result => exact .heard position (Prod.ext answer rfl)

/-- What every turn keeps holds after all of them. -/
theorem after_induction {nonce : UInt64} {motive : Course Channel → Prop}
    {course : Course Channel} (turns : List Turn) (start : motive course)
    (step : ∀ turn ∈ turns, ∀ {here there}, motive here →
      Advances medium nonce here turn there → motive there) :
    motive (course.after medium nonce turns) := by
  induction turns generalizing course with
  | nil => exact start
  | cons turn rest inductionHypothesis =>
      apply inductionHypothesis
      · exact step turn List.mem_cons_self start (course.advances medium nonce turn)
      · exact fun later member => step later (List.mem_cons_of_mem _ member)

end Course

/-! ## The status of a handshake -/

/-- The handshake follows its transcript, or has failed with its last request. -/
inductive Status {Channel : Type} (party : Party) (course : Course Channel) : Prop where
  | follows (follows : Follows party course.events course.call)
      (passes : course.call.PassesOn) (asks : course.call.Asks)
  | failed (failed : Failed party course.events course.call)

section Status

variable {Channel Turn : Type} {medium : Medium Channel Turn} {party : Party}

theorem Failed.returned {events : List Event} {call : Handshake}
    (failed : Failed party events call) :
    ∃ connection error, call = .returned connection (.error (.transportFailed error)) := by
  obtain ⟨_, _, error, connection, -, -, -, ended⟩ := failed.failed
  exact ⟨connection, error, ended⟩

/-- A failing answer ends the handshake. -/
theorem Follows.breaks {events : List Event} {connection : Connection} {request : Request}
    {answered : Answer request →
      Process Connection Request Answer (Except ConnectionError HandshakeState)}
    (follows : Follows party events (.running (.ask connection request answered)))
    (passes : Handshake.PassesOn (.running (.ask connection request answered)))
    {event : Event} {error : TransportError} (failed : event.failure = some error)
    (silent : event.consumed = none) (asked : ∀ answer, event = .heard answer → request = .read)
    (offered : handed (events ++ [event]) <+: (party.transcriptOf (consumed events)).written) :
    Failed party (events ++ [event])
      (.resume party.nonce (answered (failing request error))) := by
  have broken := follows.fail passes failed silent asked offered []
  have ended : Handshake.events party.nonce []
      (.resume party.nonce (answered (failing request error))) =
      ([], .resume party.nonce (answered (failing request error))) := by
    rw [passes.1 error]
    rfl
  rw [ended] at broken
  exact broken

theorem asks_start (party : Party) : party.start.Asks := by
  show (performHandshake _ _ _).Asks
  exact asks_resume _ _

theorem status_start (party : Party) (channel : Channel) :
    Status party (Course.start party channel) :=
  .follows (follows_start party) (passesOn_performHandshake _ _ _) (asks_start party)

theorem status_advances {course next : Course Channel} (status : Status party course) {turn : Turn}
    (advances : course.Advances medium party.nonce turn next) : Status party next := by
  cases status with
  | failed failed =>
      obtain ⟨connection, error, ended⟩ := failed.returned
      cases advances with
      | returned _ => exact .failed failed
      | wrote position _ => exact absurd (ended.symm.trans position) (by simp)
      | waits position _ => exact absurd (ended.symm.trans position) (by simp)
      | heard position _ => exact absurd (ended.symm.trans position) (by simp)
      | tests position => exact absurd (ended.symm.trans position) (by simp)
  | follows follows passes asks =>
      cases advances with
      | returned ended => exact .follows follows passes asks
      | waits position read => exact .follows follows passes asks
      | tests position =>
          rw [position] at asks
          exact asks.elim
      | @wrote connection message answered position answer channel written =>
          rw [position] at follows passes
          cases answer with
          | ok _ => exact .follows follows.wrote (passesOn_resume _ (passes.2 _)) (asks_resume _ _)
          | error error =>
              have offered := follows.wrote.written
              simp only [consumed_concat, Event.consumed, Option.toList_none,
                List.append_nil] at offered
              exact .failed (follows.breaks passes rfl rfl (fun _ same => by cases same)
                (by simpa [Event.handed] using offered))
      | @heard connection answered position answer channel read =>
          rw [position] at follows passes
          cases answer with
          | ok message =>
              exact .follows (follows.heard message) (passesOn_resume _ (passes.2 _))
                (asks_resume _ _)
          | error error =>
              have offered := follows.written
              exact .failed (follows.breaks passes rfl rfl (fun _ _ => rfl)
                (by simpa [Event.handed] using offered))

theorem status_after (medium : Medium Channel Turn) (party : Party) (channel : Channel)
    (turns : List Turn) :
    Status party ((Course.start party channel).after medium party.nonce turns) :=
  Course.after_induction medium turns (status_start party channel)
    fun _ _ => fun status advances => status_advances status advances

theorem Status.report {course : Course Channel} (status : Status party course) :
    Report party course.events course.call.result := by
  cases status with
  | follows follows passes asks => exact follows.report
  | failed failed => exact failed.report

end Status

/-! ## Answers and their verdict -/

/-- The answer an event brought. -/
def Event.answer : Event → Option (Except TransportError NetworkMessage)
  | .heard answer => some answer
  | .wrote _ _ => none

/-- The answers a handshake has read. -/
def answersRead (events : List Event) : List (Except TransportError NetworkMessage) :=
  events.filterMap Event.answer

theorem answersRead_concat (events : List Event) (event : Event) :
    answersRead (events ++ [event]) = answersRead events ++ answersRead [event] :=
  List.filterMap_append

/-- Without a failure the answers are the messages read. -/
theorem answersRead_smooth {events : List Event}
    (smooth : ∀ event ∈ events, event.failure = none) :
    answersRead events = (consumed events).map .ok := by
  induction events with
  | nil => rfl
  | cons event rest inductionHypothesis =>
      have later := inductionHypothesis fun other member =>
        smooth other (List.mem_cons_of_mem _ member)
      have here := smooth event List.mem_cons_self
      unfold answersRead consumed at later ⊢
      cases event with
      | wrote message answer => exact later
      | heard answer =>
          cases answer with
          | error error => cases here
          | ok message => exact congrArg (List.cons (Except.ok message)) later

theorem length_eq_handed_consumed {events : List Event}
    (smooth : ∀ event ∈ events, event.failure = none) :
    events.length = (handed events).length + (consumed events).length := by
  induction events with
  | nil => rfl
  | cons event rest inductionHypothesis =>
      have later := inductionHypothesis fun other member =>
        smooth other (List.mem_cons_of_mem _ member)
      have here := smooth event List.mem_cons_self
      unfold handed consumed at later ⊢
      cases event with
      | wrote message answer =>
          simp only [List.filterMap_cons, Event.handed, Event.consumed, List.length_cons]
          omega
      | heard answer =>
          cases answer with
          | error error => cases here
          | ok message =>
              simp only [List.filterMap_cons, Event.handed, Event.consumed, List.length_cons]
              omega

theorem due_length (party : Party) (messages : List NetworkMessage) :
    (party.due messages).length ≤ 4 := by
  unfold Party.due
  split
  · exact Nat.zero_le _
  · rw [reply, negotiation, List.length_append, List.length_map]
    have few := List.length_filter_le (Feature.offered party.configuration.featurePreferences
      (effectiveVersion party.configuration ‹VersionMessage›)) Feature.all
    have three : Feature.all.length = 3 := rfl
    simp only [List.length_singleton]
    omega

/-- A handshake without a failure has made at most five requests more than it has
read messages. -/
theorem Follows.length_le {party : Party} {events : List Event} {call : Handshake}
    (follows : Follows party events call) : events.length ≤ (consumed events).length + 5 := by
  have counted := length_eq_handed_consumed follows.smooth
  have wrote := follows.report.handed.length_le
  have few := due_length party (consumed events)
  rw [List.length_cons] at wrote
  omega

/-! ## Handshakes that still wait -/

/-- A handshake that has not returned: nothing has failed, it has made at most five
requests more than it has read messages, and these do not decide it or it has
more to write. -/
structure Unfinished (party : Party) (events : List Event) : Prop where
  smooth : ∀ event ∈ events, event.failure = none
  few : events.length ≤ (consumed events).length + 5
  unsettled : Undecided party.nonce (consumed events) ∨
    handed events ≠ party.greeting :: party.due (consumed events)

/-- The messages read by a call that waits for another one do not decide it. -/
theorem Follows.undecided {party : Party} {events : List Event} {connection : Connection}
    {answered : Answer .read →
      Process Connection Request Answer (Except ConnectionError HandshakeState)}
    (follows : Follows party events (.running (.ask connection .read answered))) :
    Undecided party.nonce (consumed events) := by
  have stage := stage_transcript party.configuration party.peer party.nonce party.unixTimestamp
    (consumed events)
  change Stage _ _ _ _ _ (party.transcriptOf (consumed events)) at stage
  rw [← follows.settles] at stage
  exact stage.undecided rfl

theorem Follows.unfinished {party : Party} {events : List Event} {call : Handshake}
    (follows : Follows party events call) (asks : call.Asks) (waits : call.result = none) :
    Unfinished party events := by
  refine ⟨follows.smooth, follows.length_le, ?_⟩
  cases call with
  | returned connection result => cases result <;> cases waits
  | running process =>
      cases process with
      | done connection outcome => exact asks.elim
      | ask connection request answered =>
          cases request with
          | read => exact .inl follows.undecided
          | write message =>
              right
              intro complete
              have more := follows.wrote.report.handed.length_le
              simp only [handed_concat, consumed_concat, Event.handed, Event.consumed,
                Option.toList_none, Option.toList_some, List.append_nil, complete,
                List.length_append, List.length_singleton] at more
              omega

theorem Status.unfinished {Channel : Type} {party : Party} {course : Course Channel}
    (status : Status party course) (waits : course.call.result = none) :
    Unfinished party course.events := by
  cases status with
  | follows follows passes asks => exact follows.unfinished asks waits
  | failed failed =>
      obtain ⟨connection, error, ended⟩ := failed.returned
      rw [ended] at waits
      cases waits

/-- A call that has not returned has used all its responses. -/
theorem events_all {nonce : UInt64} {responses : List Response} {call : Handshake}
    (asks : call.Asks) (waits : (call.events nonce responses).2.result = none) :
    (call.events nonce responses).1.length = responses.length ∧
      (call.events nonce responses).2.Asks := by
  induction responses generalizing call with
  | nil =>
      cases call with
      | running process => exact ⟨rfl, asks⟩
      | returned connection result => cases result <;> cases waits
  | cons response rest inductionHypothesis =>
      cases call with
      | returned connection result => cases result <;> cases waits
      | running process =>
          cases process with
          | done connection outcome => exact asks.elim
          | ask connection request answered =>
              cases request with
              | write message =>
                  obtain ⟨counted, later⟩ := inductionHypothesis (asks_resume nonce _) waits
                  exact ⟨congrArg Nat.succ counted, later⟩
              | read =>
                  obtain ⟨counted, later⟩ := inductionHypothesis (asks_resume nonce _) waits
                  exact ⟨congrArg Nat.succ counted, later⟩

/-- A handshake that still waits when its responses end has used all of them. -/
theorem handshake_unfinished {party : Party} {responses : List Response}
    (waits : party.start.drive party.nonce responses = none) :
    (party.start.events party.nonce responses).1.length = responses.length ∧
      Unfinished party (party.start.events party.nonce responses).1 := by
  rw [drive_eq_result] at waits
  have opened : party.start.Asks := asks_start party
  obtain ⟨counted, asks⟩ := events_all opened waits
  refine ⟨counted, ?_⟩
  have followed := events_follow responses (follows_start party)
    (passesOn_performHandshake party.nonce party.unixTimestamp _)
  rw [List.nil_append] at followed
  rcases followed with follows | failed
  · exact follows.unfinished asks waits
  · obtain ⟨connection, error, ended⟩ := failed.returned
    rw [ended] at waits
    cases waits

/-! ## Messages that decide -/

/-- A handshake that has returned reads nothing more. -/
theorem transcriptOf_append {party : Party} {messages : List NetworkMessage}
    {connection : Connection} {result : Except ConnectionError Unit}
    (ended : (party.transcriptOf messages).call = .returned connection result)
    (more : List NetworkMessage) :
    party.transcriptOf (messages ++ more) = party.transcriptOf messages := by
  induction more using List.reverseRecOn with
  | nil => rw [List.append_nil]
  | append_singleton more message inductionHypothesis =>
      rw [← List.append_assoc, Party.transcriptOf, transcript_concat]
      change (party.transcriptOf (messages ++ more)).next party.nonce message = _
      rw [inductionHypothesis, Transcript.next, ended]
      rfl

/-- Messages in front of the same answers begin one another. -/
theorem begins_or_begins {read messages : List NetworkMessage}
    {others : List (Except TransportError NetworkMessage)}
    (heard : read.map Except.ok <+: messages.map .ok ++ others) :
    read <+: messages ∨ messages <+: read := by
  have injective : Function.Injective (Except.ok (ε := TransportError) (α := NetworkMessage)) :=
    fun _ _ => Except.ok.inj
  rcases List.prefix_or_prefix_of_prefix heard (List.prefix_append _ _) with shorter | longer
  · obtain ⟨first, begins, same⟩ := List.prefix_map_iff.mp shorter
    rw [List.map_injective_iff.mpr injective same]
    exact .inl begins
  · obtain ⟨first, begins, same⟩ := List.prefix_map_iff.mp longer
    rw [List.map_injective_iff.mpr injective same]
    exact .inr begins

/-- A failure among the answers comes after all messages. -/
theorem begins_of_error {read messages : List NetworkMessage} {error : TransportError}
    {others : List (Except TransportError NetworkMessage)}
    (heard : read.map Except.ok ++ [Except.error error] <+: messages.map .ok ++ others) :
    messages <+: read := by
  induction messages generalizing read with
  | nil => exact List.nil_prefix
  | cons message later inductionHypothesis =>
      rw [List.map_cons, List.cons_append] at heard
      cases read with
      | nil =>
          rw [List.map_nil, List.nil_append, List.cons_prefix_cons] at heard
          cases heard.1
      | cons first rest =>
          rw [List.map_cons, List.cons_append, List.cons_prefix_cons, Except.ok.injEq] at heard
          rw [heard.1]
          exact (List.prefix_cons_inj message).mpr (inductionHypothesis heard.2)

section Decided

variable {party : Party} {messages : List NetworkMessage}
  {others : List (Except TransportError NetworkMessage)}
  {result : Except ConnectionError Connection}

/-- Nothing after messages that decide a handshake has a part in it. -/
theorem transcriptOf_of_decided (decided : (party.transcriptOf messages).call.result = some result)
    {read : List NetworkMessage} (longer : messages <+: read) :
    party.transcriptOf read = party.transcriptOf messages := by
  obtain ⟨more, rfl⟩ := longer
  cases ended : (party.transcriptOf messages).call with
  | running process =>
      rw [ended] at decided
      cases decided
  | returned connection outcome => exact transcriptOf_append ended more

/-- A handshake that returned without a failure ends as its transcript does. -/
theorem Follows.decided {events : List Event} {call : Handshake}
    (follows : Follows party events call)
    (heard : answersRead events <+: messages.map .ok ++ others)
    (decided : (party.transcriptOf messages).call.result = some result)
    (ended : call.result ≠ none) :
    call.result = some result ∧ handed events = (party.transcriptOf messages).written := by
  rw [answersRead_smooth follows.smooth] at heard
  cases call with
  | running process => exact absurd rfl ended
  | returned connection outcome =>
      have transcript := follows.returned
      have same : party.transcriptOf (consumed events) = party.transcriptOf messages := by
        rcases begins_or_begins heard with ⟨more, rfl⟩ | longer
        · exact (transcriptOf_append (by rw [transcript]) more).symm
        · exact transcriptOf_of_decided decided longer
      rw [← same, transcript] at decided
      rw [← same, transcript]
      exact ⟨decided, rfl⟩

/-- A handshake does not fail with a read when messages come that decide it. -/
theorem Failed.undecided {events : List Event} {call : Handshake}
    (failed : Failed party events call)
    (written : ∀ message error, .wrote message (.error error) ∉ events)
    (heard : answersRead events <+: messages.map .ok ++ others) :
    (party.transcriptOf messages).call.result ≠ some result := by
  intro decided
  obtain ⟨before, event, error, connection, split, smooth, cause, -⟩ := failed.failed
  cases event with
  | wrote message answer =>
      cases answer with
      | ok _ => cases cause
      | error other => exact written message other (by rw [split]; simp)
  | heard answer =>
      cases answer with
      | ok message => cases cause
      | error other =>
          obtain ⟨waits, -⟩ := failed.waits before _ split
          have read : consumed events = consumed before := by
            rw [split, consumed_concat]
            exact List.append_nil _
          rw [split, answersRead_concat, answersRead_smooth smooth] at heard
          rw [read, transcriptOf_of_decided decided (begins_of_error heard), decided] at waits
          cases waits

/-- The result of a handshake whose writes succeed and what it has written, when
messages come that decide it. -/
theorem Status.decided {Channel : Type} {course : Course Channel} (status : Status party course)
    (written : ∀ message error, .wrote message (.error error) ∉ course.events)
    (heard : answersRead course.events <+: messages.map .ok ++ others)
    (decided : (party.transcriptOf messages).call.result = some result)
    (ended : course.call.result ≠ none) :
    course.call.result = some result ∧
      handed course.events = (party.transcriptOf messages).written := by
  cases status with
  | follows follows passes asks => exact follows.decided heard decided ended
  | failed failed => exact absurd decided (failed.undecided written heard)

/-- A handshake reads no more than the messages that decide it. -/
theorem Follows.read_le {events : List Event} {call : Handshake}
    (follows : Follows party events call)
    (heard : answersRead events <+: messages.map .ok ++ others)
    (decided : (party.transcriptOf messages).call.result = some result) :
    (consumed events).length ≤ messages.length := by
  rw [answersRead_smooth follows.smooth] at heard
  rcases begins_or_begins heard with shorter | longer
  · exact shorter.length_le
  · have stage := stage_transcript party.configuration party.peer party.nonce
      party.unixTimestamp messages
    have read := follows.read
    rw [transcriptOf_of_decided decided longer] at read
    rw [← read]
    exact stage.consumed_prefix.length_le

end Decided

end BitcoinPeers.Connection

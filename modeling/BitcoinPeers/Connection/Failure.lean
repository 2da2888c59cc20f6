import BitcoinPeers.Connection.Duplex
import BitcoinPeers.Connection.Tcp

/-!
Contract: a handshake whose reads and writes may fail at any point.

Owns:
- the events of a handshake: every read and write with its answer, in order;
- that a handshake follows the transcript of the messages it has read up to the
  first failing answer, and returns that failure at once.

Does not own: how the transport comes about, or bytes.
-/

namespace BitcoinPeers.Connection

open BitcoinPeers.Foundation Computation

/-! ## Failing answers -/

/-- The transport fails. -/
def failing : (request : Request) → TransportError → Answer request
  | .write _, error => .error error
  | .read, error => .error error

/-- The code passes every transport error on, as it is. -/
abbrev PassesOn {Result : Type} (code : ConnectionM Result) : Prop :=
  code.Raises failing .transportFailed

theorem passesOn_write (message : NetworkMessage) : PassesOn (write message) := by
  intro connection
  refine ⟨fun cause => rfl, fun answer => ?_⟩
  cases answer with
  | ok _ => trivial
  | error error => trivial

theorem passesOn_read : PassesOn read := by
  intro connection
  refine ⟨fun cause => rfl, fun answer => ?_⟩
  cases answer with
  | ok message => trivial
  | error error => trivial

/-- Sending one feature message passes errors on, whatever follows. -/
theorem passesOn_offer {condition : Prop} [Decidable condition] (message : NetworkMessage)
    {change : Connection → Connection} {rest : ConnectionM Unit} (passesRest : PassesOn rest) :
    PassesOn (if condition then (do write message; modify change; rest) else rest) := by
  split
  · apply raises_bind (passesOn_write message)
    intro _
    exact raises_bind (raises_modify change) fun _ => passesRest
  · exact passesRest

theorem passesOn_sendNegotiationMessages (effectiveVersion : UInt32) :
    PassesOn (sendNegotiationMessages effectiveVersion) := by
  unfold sendNegotiationMessages
  apply raises_bind raises_get
  intro connection
  apply passesOn_offer
  apply passesOn_offer
  split
  · apply raises_bind (passesOn_write _)
    exact fun _ => raises_modify _
  · exact raises_pure _

theorem passesOn_handleVersionMessage (version : VersionMessage) (nonce : UInt64)
    (state : HandshakeState) : PassesOn (handleVersionMessage version nonce state) := by
  have greets : ∀ final : HandshakeState, PassesOn (do
      modify fun connection =>
        { connection with
          peer.services := .known version.services
          peer.version := .known version.version }
      let localVersion :=
        (← get).configuration.protocolVersion.unwrapOr MIN_PROTOCOL_VERSION
      let effectiveVersion := min localVersion version.version
      modify fun connection =>
        { connection with state.effectiveProtocolVersion := .known effectiveVersion }
      sendNegotiationMessages effectiveVersion
      write .verack
      pure final) := by
    intro final
    apply raises_bind (raises_modify _)
    intro _
    apply raises_bind raises_get
    intro connection
    apply raises_bind (raises_modify _)
    intro _
    apply raises_bind (passesOn_sendNegotiationMessages _)
    intro _
    apply raises_bind (passesOn_write _)
    exact fun _ => raises_pure final
  unfold handleVersionMessage
  split
  · exact raises_fail _
  · cases state with
    | versionSent => exact greets _
    | verackReceived => exact greets _
    | versionReceived => exact raises_pure _
    | complete => exact raises_pure _

theorem passesOn_handshakeRound (nonce : UInt64) (state : HandshakeState) :
    PassesOn (handshakeRound nonce state) := by
  apply raises_bind passesOn_read
  intro message
  cases message with
  | version version => exact passesOn_handleVersionMessage version nonce state
  | _ => exact raises_pure _

/-- A call that passes errors on wherever it waits. -/
def Handshake.PassesOn : Handshake → Prop
  | .running process => process.Raises failing .transportFailed
  | .returned _ _ => True

theorem passesOn_resume (nonce : UInt64)
    {process : Process Connection Request Answer (Except ConnectionError HandshakeState)}
    (passes : process.Raises failing .transportFailed) :
    (Handshake.resume nonce process).PassesOn := by
  cases process with
  | ask connection request answered => exact passes
  | done connection outcome =>
      cases outcome with
      | error error => trivial
      | ok state =>
          cases state with
          | complete => trivial
          | _ => exact passesOn_handshakeRound nonce _ connection

theorem passesOn_performHandshake (nonce : UInt64) (unixTimestamp : Int64)
    (connection : Connection) :
    (performHandshake nonce unixTimestamp connection).PassesOn := by
  apply passesOn_resume
  have starts : PassesOn (startHandshake nonce unixTimestamp) := by
    apply raises_bind raises_get
    intro _
    apply raises_bind (passesOn_write _)
    exact fun _ => raises_pure _
  exact starts connection

/-! ## Events -/

/-- A request with its answer. -/
inductive Event where
  | wrote (message : NetworkMessage) (answer : Except TransportError Unit)
  | heard (answer : Except TransportError NetworkMessage)

/-- The error of a failed request. -/
def Event.failure : Event → Option TransportError
  | .wrote _ (.error error) => some error
  | .heard (.error error) => some error
  | _ => none

/-- The message an event handed to the transport. -/
def Event.handed : Event → Option NetworkMessage
  | .wrote message _ => some message
  | .heard _ => none

/-- The message an event brought. -/
def Event.consumed : Event → Option NetworkMessage
  | .heard (.ok message) => some message
  | _ => none

/-- What a handshake does on the responses that arrive, and where it is when
they end. -/
def Handshake.events (nonce : UInt64) : List Response → Handshake → List Event × Handshake
  | _, .returned connection result => ([], .returned connection result)
  | [], .running process => ([], .running process)
  | response :: rest, .running (.ask _ (.write message) answered) =>
      let later := events nonce rest (.resume nonce (answered response.write))
      (.wrote message response.write :: later.1, later.2)
  | response :: rest, .running (.ask _ .read answered) =>
      let later := events nonce rest (.resume nonce (answered response.read))
      (.heard response.read :: later.1, later.2)
  | _ :: rest, .running (.done connection outcome) =>
      events nonce rest (.resume nonce (.done connection outcome))

@[simp] theorem events_returned (nonce : UInt64) (responses : List Response)
    (connection : Connection) (result : Except ConnectionError Unit) :
    (Handshake.returned connection result).events nonce responses =
      ([], .returned connection result) := by
  cases responses <;> rfl

/-- The result of a call that has returned. -/
def Handshake.result : Handshake → Option (Except ConnectionError Connection)
  | .returned connection (.ok ()) => some (.ok connection)
  | .returned _ (.error error) => some (.error error)
  | .running _ => none

theorem drive_eq_result (nonce : UInt64) (responses : List Response) (call : Handshake) :
    call.drive nonce responses = (call.events nonce responses).2.result := by
  induction responses generalizing call with
  | nil =>
      cases call with
      | running process => rfl
      | returned connection result => cases result <;> rfl
  | cons response rest inductionHypothesis =>
      cases call with
      | returned connection result => cases result <;> rfl
      | running process =>
          cases process with
          | done connection outcome => exact inductionHypothesis _
          | ask connection request answered =>
              cases request with
              | write message => exact inductionHypothesis _
              | read => exact inductionHypothesis _

/-! ## Following the transcript -/

/-- The messages of some events that were handed to the transport. -/
def handed (events : List Event) : List NetworkMessage := events.filterMap Event.handed

/-- The messages of some events that were read. -/
def consumed (events : List Event) : List NetworkMessage := events.filterMap Event.consumed

@[simp] theorem handed_concat (events : List Event) (event : Event) :
    handed (events ++ [event]) = handed events ++ event.handed.toList := by
  rw [handed, List.filterMap_append, handed]
  cases event <;> rfl

@[simp] theorem consumed_concat (events : List Event) (event : Event) :
    consumed (events ++ [event]) = consumed events ++ event.consumed.toList := by
  rw [consumed, List.filterMap_append, consumed]
  cases found : event.consumed <;> simp [found]

/-- Every event so far succeeded, and the call is where the messages read put
it. -/
structure Follows (party : Party) (events : List Event) (call : Handshake) : Prop where
  smooth : ∀ event ∈ events, event.failure = none
  settles : Transcript.settle party.nonce call (consumed events) (handed events) =
    party.transcriptOf (consumed events)

/-- The last event failed, the call has returned its error, and what was handed
over is part of the transcript. -/
structure Failed (party : Party) (events : List Event) (call : Handshake) : Prop where
  failed : ∃ before event error connection, events = before ++ [event] ∧
    (∀ earlier ∈ before, earlier.failure = none) ∧ event.failure = some error ∧
    call = .returned connection (.error (.transportFailed error))
  /-- Before a failing read the handshake was not decided and had nothing to write. -/
  waits : ∀ before answer, events = before ++ [.heard answer] →
    (party.transcriptOf (consumed events)).call.result = none ∧
      (party.transcriptOf (consumed events)).written = Connection.handed before
  read : (party.transcriptOf (consumed events)).consumed = consumed events
  handed : handed events <+: (party.transcriptOf (consumed events)).written

theorem Follows.read {party : Party} {events : List Event} {call : Handshake}
    (follows : Follows party events call) :
    (party.transcriptOf (consumed events)).consumed = consumed events := by
  rw [← follows.settles]
  rfl

/-- What a call has handed over is part of the transcript. -/
theorem Follows.written {party : Party} {events : List Event} {call : Handshake}
    (follows : Follows party events call) :
    handed events <+: (party.transcriptOf (consumed events)).written := by
  rw [← follows.settles]
  exact List.prefix_append _ _

theorem Follows.wrote {party : Party} {events : List Event} {connection : Connection}
    {message : NetworkMessage}
    {answered : Answer (.write message) →
      Process Connection Request Answer (Except ConnectionError HandshakeState)}
    (follows : Follows party events (.running (.ask connection (.write message) answered))) :
    Follows party (events ++ [.wrote message (.ok ())])
      (.resume party.nonce (answered (.ok ()))) := by
  refine ⟨fun event member => ?_, ?_⟩
  · rcases List.mem_append.mp member with old | new
    · exact follows.smooth event old
    · rw [List.mem_singleton.mp new]
      rfl
  · simp only [handed_concat, consumed_concat, Event.handed, Event.consumed, Option.toList_none,
      Option.toList_some, List.append_nil]
    rw [Duplex.settle_write, follows.settles]

theorem Follows.heard {party : Party} {events : List Event} {connection : Connection}
    {answered : Answer .read →
      Process Connection Request Answer (Except ConnectionError HandshakeState)}
    (follows : Follows party events (.running (.ask connection .read answered)))
    (message : NetworkMessage) :
    Follows party (events ++ [.heard (.ok message)])
      (.resume party.nonce (answered (.ok message))) := by
  refine ⟨fun event member => ?_, ?_⟩
  · rcases List.mem_append.mp member with old | new
    · exact follows.smooth event old
    · rw [List.mem_singleton.mp new]
      rfl
  · let here : End := ⟨.running (.ask connection .read answered), [], consumed events,
      handed events, []⟩
    have settles : Duplex.Settles party here := follows.settles
    simp only [handed_concat, consumed_concat, Event.handed, Event.consumed, Option.toList_none,
      Option.toList_some, List.append_nil]
    exact Duplex.settles_read settles rfl message

/-- A failing answer ends the call. -/
theorem Follows.fail {party : Party} {events : List Event} {connection : Connection}
    {request : Request}
    {answered : Answer request →
      Process Connection Request Answer (Except ConnectionError HandshakeState)}
    (follows : Follows party events (.running (.ask connection request answered)))
    (passes : Handshake.PassesOn (.running (.ask connection request answered)))
    {event : Event} {error : TransportError} (failed : event.failure = some error)
    (silent : event.consumed = none) (asked : ∀ answer, event = .heard answer → request = .read)
    (offered : handed (events ++ [event]) <+: (party.transcriptOf (consumed events)).written)
    (rest : List Response) :
    let later := Handshake.events party.nonce rest
      (.resume party.nonce (answered (failing request error)))
    Failed party (events ++ event :: later.1) later.2 := by
  intro later
  have ended : later = ([], .returned connection (.error (.transportFailed error))) := by
    show Handshake.events party.nonce rest (.resume party.nonce (answered _)) = _
    rw [passes.1 error]
    exact events_returned _ _ _ _
  rw [ended]
  refine ⟨⟨events, event, error, connection, rfl, follows.smooth, failed, rfl⟩,
    fun before answer split => ?_, ?_, ?_⟩
  · obtain ⟨rfl, last⟩ := List.append_inj' split rfl
    obtain rfl := asked answer (List.singleton_inj.mp last)
    rw [consumed_concat, silent, Option.toList_none, List.append_nil, ← follows.settles]
    exact ⟨rfl, List.append_nil _⟩
  · rw [consumed_concat, silent, Option.toList_none, List.append_nil]
    exact follows.read
  · rw [consumed_concat, silent, Option.toList_none, List.append_nil]
    exact offered

/-- On every list of responses the call follows its transcript, or has failed at
the last event. -/
theorem events_follow {party : Party} (responses : List Response) {events : List Event}
    {call : Handshake} (follows : Follows party events call) (passes : call.PassesOn) :
    Follows party (events ++ (call.events party.nonce responses).1)
        (call.events party.nonce responses).2 ∨
      Failed party (events ++ (call.events party.nonce responses).1)
        (call.events party.nonce responses).2 := by
  induction responses generalizing events call with
  | nil =>
      left
      cases call with
      | running process => simpa [Handshake.events] using follows
      | returned connection result => simpa using follows
  | cons response rest inductionHypothesis =>
      cases call with
      | returned connection result =>
          left
          simpa using follows
      | running process =>
          cases process with
          | done connection outcome =>
              refine inductionHypothesis ⟨follows.smooth, ?_⟩ (passesOn_resume _ trivial)
              rw [Duplex.settle_done, follows.settles]
          | ask connection request answered =>
              have later := passes.2
              cases request with
              | write message =>
                  simp only [Handshake.events]
                  cases response.write with
                  | ok _ =>
                      rw [List.append_cons]
                      exact inductionHypothesis follows.wrote (passesOn_resume _ (later _))
                  | error error =>
                      right
                      have offered := follows.wrote.written
                      simp only [consumed_concat, Event.consumed, Option.toList_none,
                        List.append_nil] at offered
                      exact follows.fail passes rfl rfl (fun _ same => by cases same)
                        (by simpa [Event.handed] using offered) rest
              | read =>
                  simp only [Handshake.events]
                  cases response.read with
                  | ok message =>
                      rw [List.append_cons]
                      exact inductionHypothesis (follows.heard message)
                        (passesOn_resume _ (later _))
                  | error error =>
                      right
                      have offered := follows.written
                      exact follows.fail passes rfl rfl (fun _ _ => rfl)
                        (by simpa [Event.handed] using offered) rest

/-! ## The handshake -/

/-- The call of `perform_handshake` of a party. -/
def Party.start (party : Party) : Handshake :=
  performHandshake party.nonce party.unixTimestamp (.new party.peer party.configuration)

/-- The answer that the messages read call for. -/
def Party.due (party : Party) (messages : List NetworkMessage) : List NetworkMessage :=
  match handledVersion party.nonce messages with
  | none => []
  | some version => reply party.configuration version

theorem transcriptOf_written (party : Party) (messages : List NetworkMessage) :
    (party.transcriptOf messages).written =
      party.greeting :: party.due (party.transcriptOf messages).consumed :=
  (stage_transcript _ _ _ _ messages).written_eq

/-- A returned connection is the summary of what was read. -/
theorem Stage.summary_eq {configuration : ConnectionConfiguration} {peer : Peer} {nonce : UInt64}
    {greeting : NetworkMessage} {messages : List NetworkMessage} {transcript : Transcript}
    (stage : Stage configuration peer nonce greeting messages transcript)
    {connection : Connection} (returned : transcript.call = .returned connection (.ok ())) :
    connection = summary configuration peer transcript.consumed := by
  cases stage with
  | reading undecided => cases returned
  | finished after undecided other exchanged =>
      cases returned
      rfl
  | looped after undecided equal => cases returned

/-- A call that has returned without a failure is its transcript. -/
theorem Follows.returned {party : Party} {events : List Event} {connection : Connection}
    {result : Except ConnectionError Unit}
    (follows : Follows party events (.returned connection result)) :
    party.transcriptOf (consumed events) =
      ⟨.returned connection result, consumed events, handed events⟩ := by
  rw [← follows.settles]
  simp [Transcript.settle, Handshake.flush]

theorem follows_start (party : Party) : Follows party [] party.start :=
  ⟨fun _ member => absurd member List.not_mem_nil, rfl⟩

/-- What a handshake has done on some responses. -/
structure Report (party : Party) (events : List Event)
    (result : Option (Except ConnectionError Connection)) : Prop where
  /-- The version message and the answer to the first version, in order. -/
  handed : handed events <+: party.greeting :: party.due (consumed events)
  /-- A failed request is the last. -/
  last : ∀ before event after, events = before ++ event :: after → event.failure ≠ none →
    after = []
  ok : ∀ connection, result = some (.ok connection) →
    (∀ event ∈ events, event.failure = none) ∧ Exchanged (consumed events) ∧
      ¬ Loops party.nonce (consumed events) ∧
      Connection.handed events = party.greeting :: party.due (consumed events) ∧
      connection = summary party.configuration party.peer (consumed events)
  error : ∀ error, result = some (.error error) →
    (error = .connectionLoop ∧ (∀ event ∈ events, event.failure = none) ∧
        Loops party.nonce (consumed events)) ∨
      ∃ event ∈ events, ∃ cause, event.failure = some cause ∧ error = .transportFailed cause
  failure : ∀ event ∈ events, ∀ cause, event.failure = some cause →
    result = some (.error (.transportFailed cause))

theorem Follows.report {party : Party} {events : List Event} {call : Handshake}
    (follows : Follows party events call) : Report party events call.result := by
  have stage := stage_transcript party.configuration party.peer party.nonce party.unixTimestamp
    (consumed events)
  have written := transcriptOf_written party (consumed events)
  rw [follows.read] at written
  refine ⟨?_, fun before event after split failed => ?_, fun connection ended => ?_,
    fun error ended => ?_, fun event member cause failed => ?_⟩
  · rw [← written]
    exact follows.written
  · exfalso
    apply failed
    apply follows.smooth
    rw [split]
    exact List.mem_append_right _ List.mem_cons_self
  · obtain rfl : call = .returned connection (.ok ()) := by
      unfold Handshake.result at ended
      split at ended <;> cases ended
      rfl
    have transcript := follows.returned
    change Stage _ _ _ _ _ (party.transcriptOf (consumed events)) at stage
    rw [transcript] at stage written
    obtain ⟨exchanged, unlooped, -⟩ := stage.exchanged rfl
    exact ⟨follows.smooth, exchanged, unlooped, written, stage.summary_eq rfl⟩
  · obtain ⟨connection, rfl⟩ : ∃ connection, call = .returned connection (.error error) := by
      unfold Handshake.result at ended
      split at ended <;> cases ended
      exact ⟨_, rfl⟩
    have transcript := follows.returned
    change Stage _ _ _ _ _ (party.transcriptOf (consumed events)) at stage
    rw [transcript] at stage
    rcases stage.result_eq rfl with ok | ⟨same, loops⟩
    · cases ok
    · cases same
      exact .inl ⟨rfl, follows.smooth, loops⟩
  · rw [follows.smooth event member] at failed
    cases failed

theorem Failed.report {party : Party} {events : List Event} {call : Handshake}
    (failed : Failed party events call) : Report party events call.result := by
  obtain ⟨⟨before, event, error, _, rfl, smooth, cause, rfl⟩, -, read, offered⟩ := failed
  have written := transcriptOf_written party (consumed (before ++ [event]))
  rw [read] at written
  refine ⟨?_, fun first other after split broken => ?_, fun _ ended => ?_,
    fun _ ended => ?_, fun other member found known => ?_⟩
  · rw [← written]
    exact offered
  · rcases List.eq_nil_or_concat after with none | ⟨init, final, rfl⟩
    · exact none
    · exfalso
      rw [List.concat_eq_append, ← List.cons_append, ← List.append_assoc] at split
      have front := (List.append_inj_left' split rfl)
      apply broken
      apply smooth
      rw [front]
      exact List.mem_append_right _ List.mem_cons_self
  · cases ended
  · cases ended
    exact .inr ⟨event, List.mem_append_right _ List.mem_cons_self, _, cause, rfl⟩
  · rcases List.mem_append.mp member with old | new
    · rw [smooth other old] at known
      cases known
    · rw [List.mem_singleton.mp new, cause] at known
      cases known
      rfl

/-- A handshake on any answers of the transport: it hands over its version
message and then, for the first version it reads, the feature messages and the
verack, and stops at the first failing answer; it returns `Ok` only when every
answer succeeded, and otherwise `ConnectionLoop` or the failing answer itself. -/
theorem handshake_report (party : Party) (responses : List Response) :
    Report party (party.start.events party.nonce responses).1
      (party.start.drive party.nonce responses) := by
  rw [drive_eq_result]
  have passes := passesOn_performHandshake party.nonce party.unixTimestamp
    (.new party.peer party.configuration)
  have followed := events_follow responses (follows_start party) passes
  rw [List.nil_append] at followed
  rcases followed with follows | failed
  · exact follows.report
  · exact failed.report

end BitcoinPeers.Connection

import BitcoinPeers.Connection.Outcome

/-!
Contract: a connection from its handshake on, under the public calls of
`connection/src/connection/futures.rs`.

Owns:
- `read` and `write` on the whole connection or, after `into_split`, on its
  halves, which share one record;
- the messages that have passed in both directions;
- when the feature states tell which feature messages these were.

Does not own: calls that fail.
-/

namespace BitcoinPeers.Connection

open BitcoinPeers.Foundation Computation

/-! ## Public calls -/

/-- What the caller holds. -/
inductive Handles where
  | whole
  | halves
deriving DecidableEq, Repr

/-- A successful public call, with the message it reads or writes. -/
inductive PublicCall where
  | read (message : NetworkMessage)
  | write (message : NetworkMessage)
  | intoSplit

/-- `ConnectionReader::read`, which `Connection::read` calls. -/
def ConnectionReader.read : ConnectionM NetworkMessage := Connection.read

/-- `ConnectionWriter::write`, which `Connection::write` calls. -/
def ConnectionWriter.write (message : NetworkMessage) : ConnectionM Unit := Connection.write message

/-- The code behind a read. -/
def Handles.read : Handles → ConnectionM NetworkMessage
  | .whole => Connection.read
  | .halves => ConnectionReader.read

/-- The code behind a write. -/
def Handles.write : Handles → NetworkMessage → ConnectionM Unit
  | .whole => Connection.write
  | .halves => ConnectionWriter.write

/-- A connection in use, with all messages written and read since it was made. -/
structure Life where
  handles : Handles
  connection : Connection
  written : List NetworkMessage
  consumed : List NetworkMessage

/-- The transport serves every request; a read gives `message`. -/
def answering (message : NetworkMessage) : (request : Request) → Option (Answer request)
  | .write _ => some (.ok ())
  | .read => some (.ok message)

/-- The record as the code leaves it. -/
def leaves {Result : Type} : Process Connection Request Answer Result → Connection
  | .done connection _ => connection
  | .ask connection _ _ => connection

namespace Life

/-- The connection a handshake returned. -/
def ofTranscript (connection : Connection) (transcript : Transcript) : Life :=
  ⟨.whole, connection, transcript.written, transcript.consumed⟩

def call (life : Life) : PublicCall → Life
  | .read message =>
      { life with
        connection := leaves ((life.handles.read life.connection).serve (answering message)).2
        consumed := life.consumed ++ [message] }
  | .write message =>
      { life with
        connection := leaves ((life.handles.write message life.connection).serve acceptWrites).2
        written := life.written ++ [message] }
  | .intoSplit => { life with handles := .halves }

/-- The connection after some calls. -/
def after (life : Life) (calls : List PublicCall) : Life := calls.foldl call life

end Life

/-- The state of a feature says exactly which of its messages have passed. -/
def Truthful (life : Life) (feature : Feature) : Prop :=
  let written := feature.message ∈ life.written
  let consumed := feature.message ∈ life.consumed
  (stateOf life.connection.state feature = .enabled ↔ written ∧ consumed) ∧
    (stateOf life.connection.state feature = .sentOnly ↔ written ∧ ¬ consumed) ∧
    (stateOf life.connection.state feature = .receivedOnly ↔ ¬ written ∧ consumed) ∧
    (stateOf life.connection.state feature = .notNegotiated ↔ ¬ written ∧ ¬ consumed)

/-! ## What a call changes -/

/-- A read records a feature message in the state. -/
theorem connection_read (life : Life) (message : NetworkMessage) :
    (life.call (.read message)).connection =
      { life.connection with state := life.connection.state.onReceive message } := by
  obtain ⟨handles, connection, written, consumed⟩ := life
  cases handles <;> rfl

/-- A write does not touch the record. -/
theorem connection_write (life : Life) (message : NetworkMessage) :
    (life.call (.write message)).connection = life.connection := by
  obtain ⟨handles, connection, written, consumed⟩ := life
  cases handles <;> rfl

theorem stateOf_onReceive (state : ConnectionState) (message : NetworkMessage)
    (feature : Feature) :
    stateOf (state.onReceive message) feature =
      if message = feature.message then (stateOf state feature).onReceive
      else stateOf state feature := by
  cases feature <;> cases message <;> rfl

/-- The states record which feature messages were read and, of those written,
only the ones counted by `sent`. -/
def Records (sent : Feature → Bool) (life : Life) : Prop :=
  ∀ feature, stateOf life.connection.state feature =
    .recording (sent feature) (heard life.consumed feature.message)

theorem records_call {sent : Feature → Bool} {life : Life} (records : Records sent life)
    (call : PublicCall) : Records sent (life.call call) := by
  intro feature
  have here := records feature
  cases call with
  | read message =>
      rw [connection_read, stateOf_onReceive, here]
      change _ = FeatureState.recording (sent feature)
        (heard (life.consumed ++ [message]) feature.message)
      rw [heard_append, heard_singleton]
      by_cases own : message = feature.message
      · simp [own]
      · simp [own]
  | write message =>
      rw [connection_write]
      exact here
  | intoSplit => exact here

theorem records_after {sent : Feature → Bool} {life : Life} (records : Records sent life)
    (calls : List PublicCall) : Records sent (life.after calls) := by
  induction calls generalizing life with
  | nil => exact records
  | cons call rest inductionHypothesis => exact inductionHypothesis (records_call records call)

/-- The messages written are those before and those of the calls. -/
theorem mem_written_after (life : Life) (calls : List PublicCall) (message : NetworkMessage) :
    message ∈ (life.after calls).written ↔ message ∈ life.written ∨ .write message ∈ calls := by
  induction calls generalizing life with
  | nil => simp [Life.after]
  | cons call rest inductionHypothesis =>
      have later := inductionHypothesis (life.call call)
      change message ∈ ((life.call call).after rest).written ↔ _
      rw [later]
      cases call with
      | read other => simp [Life.call]
      | write other => simp [Life.call, or_assoc]
      | intoSplit => simp [Life.call]

/-! ## Truthful feature states -/

/-- A state that records `sent` is truthful when `sent` is. -/
theorem truthful_iff {sent : Feature → Bool} {life : Life} (records : Records sent life)
    (feature : Feature) :
    Truthful life feature ↔ (sent feature = true ↔ feature.message ∈ life.written) := by
  unfold Truthful
  rw [records feature, ← heard_iff, ← heard_iff]
  cases sent feature <;> cases heard life.consumed feature.message <;>
    cases heard life.written feature.message <;> decide

/-- Messages after the first version announce nothing. -/
theorem announced_append {configuration : ConnectionConfiguration}
    {before : List NetworkMessage} {version : VersionMessage}
    (first : firstVersion before = some version) (after : List NetworkMessage) :
    announced configuration (before ++ after) = announced configuration before := by
  funext feature
  unfold announced
  rw [firstVersion_append, first]
  rfl

/-- What a completed handshake leaves: states that record the announced features,
which are those whose message it wrote. -/
theorem records_transcript {configuration : ConnectionConfiguration} {peer : Peer}
    {nonce : UInt64} {greeting : VersionMessage} {messages : List NetworkMessage}
    {transcript : Transcript} {connection : Connection}
    (stage : Stage configuration peer nonce (.version greeting) messages transcript)
    (returned : transcript.call = .returned connection (.ok ())) :
    Records (announced configuration messages) (.ofTranscript connection transcript) ∧
      ∀ feature : Feature, feature.message ∈ transcript.written ↔
        announced configuration messages feature = true := by
  obtain ⟨version, first, -⟩ := stage.connection_eq returned
  cases stage with
  | reading undecided => cases returned
  | looped after undecided equal => cases returned
  | finished after undecided other exchanged =>
      cases returned
      rw [announced_append first]
      refine ⟨stateOf_summary configuration peer _, fun feature => ?_⟩
      rw [← heard_answers, heard_iff, List.mem_cons]
      cases feature <;> simp [Feature.message]

/-- After a handshake, the feature states are truthful after each of the calls
exactly when every feature message the calls write is one the handshake had
announced. -/
theorem feature_states_truthful_iff (configuration : ConnectionConfiguration) (peer : Peer)
    (nonce : UInt64) (unixTimestamp : Int64) (messages : List NetworkMessage)
    (connection : Connection)
    (returned : (transcript configuration peer nonce unixTimestamp messages).call =
      .returned connection (.ok ())) (calls : List PublicCall) :
    (∀ count feature, Truthful ((Life.ofTranscript connection
        (transcript configuration peer nonce unixTimestamp messages)).after (calls.take count))
        feature) ↔
      ∀ feature : Feature, .write feature.message ∈ calls →
        announced configuration messages feature = true := by
  obtain ⟨records, announces⟩ := records_transcript
    (stage_transcript configuration peer nonce unixTimestamp messages) returned
  have truthful : ∀ (prior : List PublicCall) (feature : Feature),
      Truthful ((Life.ofTranscript connection
          (transcript configuration peer nonce unixTimestamp messages)).after prior) feature ↔
        (.write feature.message ∈ prior → announced configuration messages feature = true) := by
    intro prior feature
    rw [truthful_iff (records_after records prior), mem_written_after]
    change (_ ↔ feature.message ∈ Transcript.written _ ∨ _) ↔ _
    rw [announces]
    tauto
  constructor
  · intro always feature written
    have whole := always calls.length feature
    rw [List.take_length] at whole
    exact (truthful calls feature).mp whole written
  · intro condition count feature
    apply (truthful (calls.take count) feature).mpr
    exact fun written => condition feature (List.mem_of_mem_take written)

/-! ## A feature message written later -/

/-- A client that does not ask for header announcements. -/
def quietConfiguration : ConnectionConfiguration :=
  .nonListening (.known 70016) .v2Preferred { enableSendheaders := false } none

/-- The version message of its peer. -/
def remoteVersion : VersionMessage where
  version := 70016
  services := ServiceFlags.NETWORK
  timestamp := 0
  receiver := Address.new (.v4 0 0) ServiceFlags.NONE
  sender := Address.new (.v4 0 0) ServiceFlags.NETWORK
  nonce := 9
  userAgent := "/remote:1.0/"
  startHeight := 0
  relay := true

/-- The messages of a complete handshake. -/
def remoteMessages : List NetworkMessage := [.version remoteVersion, .verack]

/-- The transcript of the client's handshake. -/
def quietTranscript : Transcript :=
  transcript quietConfiguration (.new (.ipv4 1) 8333) 1 0 remoteMessages

/-- The connection the handshake returns. -/
def quietConnection : Connection := summary quietConfiguration (.new (.ipv4 1) 8333) remoteMessages

theorem feature_states_truthful_iff_quiet :
    quietTranscript.call = .returned quietConnection (.ok ()) ∧
      ∀ count feature, Truthful ((Life.ofTranscript quietConnection quietTranscript).after
        ([.write .sendAddrV2, .intoSplit, .read .sendHeaders].take count)) feature := by
  refine ⟨rfl, ?_⟩
  apply (feature_states_truthful_iff quietConfiguration (.new (.ipv4 1) 8333) 1 0 remoteMessages
    quietConnection rfl _).mpr
  intro feature written
  cases feature with
  | addrV2 => rfl
  | sendHeaders => simp [Feature.message] at written
  | wtxidRelay => simp [Feature.message] at written

/-- The client writes `sendheaders` later and its peer sends one too: both have
passed, but the state says that it was only received. -/
theorem later_sendheaders_not_recorded :
    let life := (Life.ofTranscript quietConnection quietTranscript).after
      [.write .sendHeaders, .read .sendHeaders]
    .sendHeaders ∈ life.written ∧ .sendHeaders ∈ life.consumed ∧
      life.connection.state.sendHeaders = .receivedOnly ∧ ¬ Truthful life .sendHeaders := by
  refine ⟨by decide, by decide, rfl, fun truthful => ?_⟩
  have enabled := truthful.1.mpr ⟨by decide, by decide⟩
  cases enabled

end BitcoinPeers.Connection

import BitcoinPeers.Connection.Handshake

/-!
Contract: what a handshake does for the messages it reads, when its reads and
writes succeed.

Owns:
- `Transcript`, the call together with the messages it has read and written;
- the summary of a list of read messages: handshake state, peer record,
  negotiation state and answers as functions of the list;
- the step lemma that a handshake that has read an undecided list is exactly
  at its summary.

Does not own: interleaving with another endpoint.
-/

namespace BitcoinPeers.Connection

open BitcoinPeers.Foundation Computation

/-! ## Features -/

/-- The features a handshake negotiates, in the order of their messages. -/
inductive Feature where
  | addrV2
  | sendHeaders
  | wtxidRelay
deriving DecidableEq, Repr

namespace Feature

def message : Feature → NetworkMessage
  | .addrV2 => .sendAddrV2
  | .sendHeaders => .sendHeaders
  | .wtxidRelay => .wtxidRelay

def threshold : Feature → UInt32
  | .addrV2 => ADDRV2_MIN_PROTOCOL_VERSION
  | .sendHeaders => SENDHEADERS_MIN_PROTOCOL_VERSION
  | .wtxidRelay => WTXID_RELAY_MIN_PROTOCOL_VERSION

def preferred (preferences : FeaturePreferences) : Feature → Bool
  | .addrV2 => preferences.enableAddrv2
  | .sendHeaders => preferences.enableSendheaders
  | .wtxidRelay => preferences.enableWtxidrelay

/-- The feature is wanted and the version allows it. -/
def offered (preferences : FeaturePreferences) (effectiveVersion : UInt32) (feature : Feature) :
    Bool :=
  feature.preferred preferences && feature.threshold ≤ effectiveVersion

def all : List Feature := [.addrV2, .sendHeaders, .wtxidRelay]

end Feature

/-- The negotiation state of one feature. -/
def stateOf (state : ConnectionState) : Feature → FeatureState
  | .addrV2 => state.addrV2
  | .sendHeaders => state.sendHeaders
  | .wtxidRelay => state.wtxidRelay

/-- The feature messages sent for an effective version, in order. -/
def negotiation (preferences : FeaturePreferences) (effectiveVersion : UInt32) :
    List NetworkMessage :=
  (Feature.all.filter (Feature.offered preferences effectiveVersion)).map Feature.message

/-! ## Serving a handshake -/

/-- Every write succeeds; reads are left to the environment. -/
def acceptWrites : (request : Request) → Option (Answer request)
  | .write _ => some (.ok ())
  | .read => none

def Request.written : Request → Option NetworkMessage
  | .write message => some message
  | .read => none

namespace Handshake

/-- Perform the pending writes. -/
def flush (nonce : UInt64) : Handshake → List NetworkMessage × Handshake
  | .running process =>
      let served := process.serve acceptWrites
      (served.1.filterMap Request.written, .resume nonce served.2)
  | .returned connection result => ([], .returned connection result)

/-- The message read by a call that waits for one. -/
def receive (nonce : UInt64) : Handshake → NetworkMessage → Option Handshake
  | .running (.ask _ .read answered), message => some (.resume nonce (answered (.ok message)))
  | _, _ => none

end Handshake

/-- A handshake with the messages it has read and written. -/
structure Transcript where
  call : Handshake
  consumed : List NetworkMessage
  written : List NetworkMessage

namespace Transcript

/-- The transcript after the call, with its pending writes performed. -/
def settle (nonce : UInt64) (call : Handshake) (consumed written : List NetworkMessage) :
    Transcript :=
  let flushed := call.flush nonce
  ⟨flushed.2, consumed, written ++ flushed.1⟩

/-- Offer the next message of the peer. -/
def next (nonce : UInt64) (transcript : Transcript) (message : NetworkMessage) : Transcript :=
  match transcript.call.receive nonce message with
  | some call => settle nonce call (transcript.consumed ++ [message]) transcript.written
  | none => transcript

end Transcript

/-- `perform_handshake` on a new connection against a peer that sends
`messages`, with every read and write succeeding. -/
def transcript (configuration : ConnectionConfiguration) (peer : Peer) (nonce : UInt64)
    (unixTimestamp : Int64) (messages : List NetworkMessage) : Transcript :=
  messages.foldl (Transcript.next nonce)
    (.settle nonce (performHandshake nonce unixTimestamp (.new peer configuration)) [] [])

/-! ## The summary of the messages read -/

/-- The first version message of a list. -/
def firstVersion : List NetworkMessage → Option VersionMessage
  | [] => none
  | .version version :: _ => some version
  | _ :: rest => firstVersion rest

/-- A version message of the list carries the nonce. -/
def Loops (nonce : UInt64) (messages : List NetworkMessage) : Prop :=
  ∃ version, .version version ∈ messages ∧ version.nonce = nonce

/-- The list has a version message and a verack. -/
def Exchanged (messages : List NetworkMessage) : Prop :=
  (∃ version, .version version ∈ messages) ∧ .verack ∈ messages

/-- The list does not end a handshake. -/
def Undecided (nonce : UInt64) (messages : List NetworkMessage) : Prop :=
  ¬ Loops nonce messages ∧ ¬ Exchanged messages

/-- The list has the message. -/
def heard (messages : List NetworkMessage) (message : NetworkMessage) : Bool :=
  messages.any (· = message)

/-- The handshake state the messages lead to. -/
def progress (messages : List NetworkMessage) : HandshakeState :=
  match firstVersion messages, heard messages .verack with
  | none, false => .versionSent
  | none, true => .verackReceived
  | some _, false => .versionReceived
  | some _, true => .complete

section Summary

variable (configuration : ConnectionConfiguration) (peer : Peer) (messages : List NetworkMessage)

/-- The version both ends can use. -/
def effectiveVersion (version : VersionMessage) : UInt32 :=
  min configuration.localVersion version.version

/-- The feature message was sent in answer to the first version. -/
def announced (feature : Feature) : Bool :=
  match firstVersion messages with
  | none => false
  | some version =>
      feature.offered configuration.featurePreferences (effectiveVersion configuration version)

/-- The answer to a version message. -/
def reply (version : VersionMessage) : List NetworkMessage :=
  negotiation configuration.featurePreferences (effectiveVersion configuration version) ++
    [.verack]

/-- The answer to the first version of the list. -/
def answers : List NetworkMessage :=
  match firstVersion messages with
  | none => []
  | some version => reply configuration version

def featureSummary (feature : Feature) : FeatureState :=
  .recording (announced configuration messages feature) (heard messages feature.message)

def peerSummary : Peer :=
  match firstVersion messages with
  | none => peer
  | some version =>
      { peer with services := .known version.services, version := .known version.version }

def versionSummary : PeerProtocolVersion :=
  match firstVersion messages with
  | none => .unknown
  | some version => .known (effectiveVersion configuration version)

/-- The connection after the messages. -/
def summary : Connection where
  configuration := configuration
  peer := peerSummary peer messages
  state :=
    { effectiveProtocolVersion := versionSummary configuration messages
      addrV2 := featureSummary configuration messages .addrV2
      sendHeaders := featureSummary configuration messages .sendHeaders
      wtxidRelay := featureSummary configuration messages .wtxidRelay }

end Summary

/-! ## What the handlers write -/

theorem serves_write (connection : Connection) (message : NetworkMessage) :
    Serves acceptWrites (write message) connection [.write message] connection () := rfl

/-- The feature states after the offered feature messages were sent. -/
def announce (offered : Feature → Bool) (state : ConnectionState) : ConnectionState :=
  { state with
    addrV2 := if offered .addrV2 then state.addrV2.onSend else state.addrV2
    sendHeaders := if offered .sendHeaders then state.sendHeaders.onSend else state.sendHeaders
    wtxidRelay := if offered .wtxidRelay then state.wtxidRelay.onSend else state.wtxidRelay }

theorem serves_sendNegotiationMessages (connection : Connection) (effectiveVersion : UInt32) :
    Serves acceptWrites (sendNegotiationMessages effectiveVersion) connection
      ((negotiation connection.configuration.featurePreferences effectiveVersion).map .write)
      { connection with
        state := announce
          (Feature.offered connection.configuration.featurePreferences effectiveVersion)
          connection.state } () := by
  have program : sendNegotiationMessages effectiveVersion connection =
      (do
        let offered := Feature.offered connection.configuration.featurePreferences effectiveVersion
        if offered .addrV2 then
          write .sendAddrV2
          modify fun connection =>
            { connection with state.addrV2 := connection.state.addrV2.onSend }
        if offered .sendHeaders then
          write .sendHeaders
          modify fun connection =>
            { connection with state.sendHeaders := connection.state.sendHeaders.onSend }
        if offered .wtxidRelay then
          write .wtxidRelay
          modify fun connection =>
            { connection with state.wtxidRelay := connection.state.wtxidRelay.onSend }
        : ConnectionM Unit) connection := rfl
  unfold Serves negotiation announce Feature.all
  rw [program]
  generalize Feature.offered connection.configuration.featurePreferences effectiveVersion = offered
  simp only [List.filter_cons, List.filter_nil]
  cases offered .addrV2 <;> cases offered .sendHeaders <;> cases offered .wtxidRelay <;> rfl

/-- The peer record and the effective version, from a version message. -/
def record (version : VersionMessage) (connection : Connection) : Connection :=
  { connection with
    peer := { connection.peer with
      services := .known version.services, version := .known version.version }
    state := { connection.state with
      effectiveProtocolVersion := .known (effectiveVersion connection.configuration version) } }

/-- The connection after a version message was handled. -/
def greet (version : VersionMessage) (connection : Connection) : Connection :=
  { record version connection with
    state := announce
      (Feature.offered connection.configuration.featurePreferences
        (effectiveVersion connection.configuration version))
      (record version connection).state }

theorem serves_handleVersionMessage (connection : Connection) (version : VersionMessage)
    {nonce : UInt64} (other : version.nonce ≠ nonce) {state : HandshakeState}
    (waiting : state = .versionSent ∨ state = .verackReceived) :
    Serves acceptWrites (handleVersionMessage version nonce state) connection
      ((reply connection.configuration version).map .write) (greet version connection)
      (if state = .verackReceived then .complete else .versionReceived) := by
  have finish : ∀ final : HandshakeState,
      Serves acceptWrites
        (do
          sendNegotiationMessages (effectiveVersion connection.configuration version)
          write .verack
          pure final)
        (record version connection) ((reply connection.configuration version).map .write)
        (greet version connection) final := by
    intro final
    rw [reply, List.map_append]
    apply serves_bind (serves_sendNegotiationMessages (record version connection) _)
    exact serves_bind (serves_write _ _) (serves_pure _ _)
  unfold handleVersionMessage
  rw [if_neg other]
  rcases waiting with rfl | rfl
  · exact finish _
  · exact finish _

/-! ## One more message -/

theorem firstVersion_append (before after : List NetworkMessage) :
    firstVersion (before ++ after) = (firstVersion before).or (firstVersion after) := by
  induction before with
  | nil => simp [firstVersion]
  | cons message rest inductionHypothesis =>
      cases message <;> simp [firstVersion, inductionHypothesis]

theorem firstVersion_eq_none {messages : List NetworkMessage} :
    firstVersion messages = none ↔ ∀ version, .version version ∉ messages := by
  induction messages with
  | nil => simp [firstVersion]
  | cons message rest inductionHypothesis =>
      cases message with
      | version version =>
          simp only [firstVersion, reduceCtorEq, false_iff]
          exact fun absent => absent version List.mem_cons_self
      | _ => simp [firstVersion, inductionHypothesis]

theorem mem_of_firstVersion {messages : List NetworkMessage} {version : VersionMessage}
    (first : firstVersion messages = some version) : .version version ∈ messages := by
  induction messages with
  | nil => cases first
  | cons message rest inductionHypothesis =>
      cases message <;> simp_all [firstVersion]

@[simp] theorem heard_append (before after : List NetworkMessage) (message : NetworkMessage) :
    heard (before ++ after) message = (heard before message || heard after message) := by
  simp [heard]

@[simp] theorem heard_singleton (only message : NetworkMessage) :
    heard [only] message = decide (only = message) := by
  simp [heard]

theorem heard_iff {messages : List NetworkMessage} {message : NetworkMessage} :
    heard messages message = true ↔ message ∈ messages := by
  simp [heard]

section Step

variable {configuration : ConnectionConfiguration} {peer : Peer} {messages : List NetworkMessage}
  {message : NetworkMessage}

/-- A message that leaves the first version as it is changes the summary as
`read` does. -/
theorem summary_concat (same : firstVersion (messages ++ [message]) = firstVersion messages) :
    summary configuration peer (messages ++ [message]) =
      { summary configuration peer messages with
        state := (summary configuration peer messages).state.onReceive message } := by
  have announcedSame : ∀ feature, announced configuration (messages ++ [message]) feature =
      announced configuration messages feature := by
    intro feature
    rw [announced, same, announced]
  cases message <;>
    simp [summary, peerSummary, versionSummary, featureSummary, same, announcedSame,
      ConnectionState.onReceive, Feature.message]

/-- The first version message changes the summary as its handler does. -/
theorem summary_first {version : VersionMessage} (none : firstVersion messages = none) :
    summary configuration peer (messages ++ [.version version]) =
      greet version (summary configuration peer messages) := by
  have first : firstVersion (messages ++ [.version version]) = some version := by
    rw [firstVersion_append, none]
    rfl
  simp only [summary, peerSummary, versionSummary, featureSummary, announced, first, none, greet,
    record, announce, Feature.message, heard_append, heard_singleton, reduceCtorEq, decide_false,
    Bool.or_false, FeatureState.onSend_recording]
  congr 2 <;> split <;> simp_all

/-- The code of one round after its read. -/
def dispatch (nonce : UInt64) (state : HandshakeState) : NetworkMessage → ConnectionM HandshakeState
  | .version version => handleVersionMessage version nonce state
  | .verack => pure (handleVerackMessage state)
  | _ => pure state

theorem handshakeRound_eq (nonce : UInt64) (state : HandshakeState) (connection : Connection) :
    handshakeRound nonce state connection =
      .ask connection .read fun outcome =>
        match outcome with
        | .ok message => dispatch nonce state message
            { connection with state := connection.state.onReceive message }
        | .error error => .done connection (.error (.transportFailed error)) := by
  unfold handshakeRound
  change Process.ask _ _ _ = _
  congr 1
  funext outcome
  cases outcome with
  | error error => rfl
  | ok message => cases message <;> rfl

theorem progress_waiting (none : firstVersion messages = none) :
    progress messages = .versionSent ∨ progress messages = .verackReceived := by
  unfold progress
  rw [none]
  cases heard messages .verack
  · exact .inl rfl
  · exact .inr rfl

theorem progress_first {version : VersionMessage} (none : firstVersion messages = none) :
    progress (messages ++ [.version version]) =
      if progress messages = .verackReceived then .complete else .versionReceived := by
  have first : firstVersion (messages ++ [.version version]) = some version := by
    rw [firstVersion_append, none]
    rfl
  unfold progress
  rw [first, none, heard_append, heard_singleton]
  cases heard messages .verack <;> rfl

theorem progress_verack :
    progress (messages ++ [.verack]) = handleVerackMessage (progress messages) := by
  unfold progress
  rw [firstVersion_append, heard_append, heard_singleton]
  cases firstVersion messages <;> cases heard messages .verack <;> rfl

theorem progress_concat (same : firstVersion (messages ++ [message]) = firstVersion messages)
    (notVerack : message ≠ .verack) : progress (messages ++ [message]) = progress messages := by
  unfold progress
  rw [same, heard_append, heard_singleton, decide_eq_false notVerack, Bool.or_false]

theorem exchanged_of_progress (complete : progress messages = .complete) :
    Exchanged messages := by
  unfold progress at complete
  cases first : firstVersion messages with
  | none =>
      rw [first] at complete
      cases verack : heard messages .verack <;> rw [verack] at complete <;> cases complete
  | some version =>
      cases verack : heard messages .verack with
      | false =>
          rw [first, verack] at complete
          cases complete
      | true => exact ⟨⟨version, mem_of_firstVersion first⟩, heard_iff.mp verack⟩

theorem progress_of_exchanged (exchanged : Exchanged messages) :
    progress messages = .complete := by
  obtain ⟨⟨version, member⟩, verack⟩ := exchanged
  unfold progress
  rw [heard_iff.mpr verack]
  cases first : firstVersion messages with
  | none => exact absurd member (firstVersion_eq_none.mp first version)
  | some found => rfl

/-- A running handshake that has a version waits for the verack. -/
theorem progress_received {first : VersionMessage} (here : firstVersion messages = some first)
    (running : ¬ Exchanged messages) : progress messages = .versionReceived := by
  cases state : progress messages with
  | versionReceived => rfl
  | complete => exact absurd (exchanged_of_progress state) running
  | _ =>
      unfold progress at state
      rw [here] at state
      cases verack : heard messages .verack <;> rw [verack] at state <;> cases state

/-- A message changes the first version only when there was none. -/
theorem firstVersion_concat_ne
    (changed : firstVersion (messages ++ [message]) ≠ firstVersion messages) :
    firstVersion messages = none ∧ ∃ version, message = .version version := by
  rw [firstVersion_append] at changed
  cases first : firstVersion messages with
  | some found =>
      rw [first] at changed
      exact absurd rfl changed
  | none =>
      refine ⟨rfl, ?_⟩
      rw [first] at changed
      cases message with
      | version version => exact ⟨version, rfl⟩
      | _ => exact absurd rfl changed

/-- A round that reads a message other than a looping version ends at the
summary of the longer list, and writes what the answers grow by. -/
theorem serves_dispatch (configuration : ConnectionConfiguration) (peer : Peer) {nonce : UInt64}
    (running : ¬ Exchanged messages) (other : ¬ Loops nonce [message]) :
    ∃ writes,
      answers configuration (messages ++ [message]) = answers configuration messages ++ writes ∧
      Serves acceptWrites (dispatch nonce (progress messages) message)
        { summary configuration peer messages with
          state := (summary configuration peer messages).state.onReceive message }
        (writes.map .write) (summary configuration peer (messages ++ [message]))
        (progress (messages ++ [message])) := by
  by_cases same : firstVersion (messages ++ [message]) = firstVersion messages
  · refine ⟨[], by rw [answers, same, List.append_nil, answers], ?_⟩
    rw [summary_concat same]
    by_cases verack : message = .verack
    · subst verack
      rw [progress_verack]
      exact serves_pure _ _
    · rw [progress_concat same verack]
      cases message with
      | version version =>
          have distinct : version.nonce ≠ nonce := fun equal =>
            other ⟨version, List.mem_cons_self, equal⟩
          obtain ⟨first, here⟩ : ∃ first, firstVersion messages = some first := by
            rw [← Option.ne_none_iff_exists']
            intro none
            rw [firstVersion_append, none] at same
            cases same
          rw [progress_received here running]
          change Serves acceptWrites (handleVersionMessage version nonce .versionReceived) _ _ _ _
          unfold handleVersionMessage
          rw [if_neg distinct]
          exact serves_pure _ _
      | verack => exact absurd rfl verack
      | _ => exact serves_pure _ _
  · obtain ⟨none, version, rfl⟩ := firstVersion_concat_ne same
    have distinct : version.nonce ≠ nonce := fun equal =>
      other ⟨version, List.mem_cons_self, equal⟩
    refine ⟨reply configuration version, ?_, ?_⟩
    · rw [answers, answers, firstVersion_append, none]
      rfl
    · rw [summary_first none, progress_first none]
      exact serves_handleVersionMessage _ version distinct (progress_waiting none)

end Step

end BitcoinPeers.Connection

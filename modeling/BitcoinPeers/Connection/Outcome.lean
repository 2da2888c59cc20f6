import Mathlib.Data.List.Induction
import Mathlib.Data.Seq.Basic
import BitcoinPeers.Connection.Transcript

/-!
Contract: the outcome of a handshake against an arbitrary peer.

Owns the exact prefix of the peer's messages at which `perform_handshake`
returns, its result there, everything it has written, and the connection it
leaves, for every finite or infinite sequence of messages.

Does not own: failing reads or writes.
-/

namespace BitcoinPeers.Connection

open BitcoinPeers.Foundation Computation

section Rounds

variable {configuration : ConnectionConfiguration} {peer : Peer} {nonce : UInt64}
  {unixTimestamp : Int64} {messages : List NetworkMessage} {message : NetworkMessage}

/-! ## Rounds of the loop -/

/-- Passing the loop test writes nothing. -/
theorem flush_resume (nonce : UInt64)
    (process : Process Connection Request Answer (Except ConnectionError HandshakeState)) :
    (Handshake.resume nonce process).flush nonce =
      ((process.serve acceptWrites).1.filterMap Request.written,
        .resume nonce (process.serve acceptWrites).2) := by
  cases process with
  | ask connection request answered => rfl
  | done connection outcome =>
      cases outcome with
      | error error => rfl
      | ok state =>
          cases state with
          | complete => rfl
          | _ =>
              simp only [Handshake.resume, Handshake.flush, Process.serve_done]
              rw [handshakeRound_eq]
              rfl

/-- The call that has read `messages` and waits for the next one. -/
def waiting (configuration : ConnectionConfiguration) (peer : Peer) (nonce : UInt64)
    (messages : List NetworkMessage) : Handshake :=
  .running (handshakeRound nonce (progress messages) (summary configuration peer messages))

theorem resume_summary (undecided : ¬ Exchanged messages) :
    Handshake.resume nonce
        (.done (summary configuration peer messages) (.ok (progress messages))) =
      waiting configuration peer nonce messages := by
  unfold waiting
  cases state : progress messages with
  | complete => exact absurd (exchanged_of_progress state) undecided
  | _ => rfl

theorem written_map (writes : List NetworkMessage) :
    (writes.map Request.write).filterMap Request.written = writes := by
  induction writes with
  | nil => rfl
  | cons message rest inductionHypothesis =>
      rw [List.map_cons, List.filterMap_cons, inductionHypothesis]
      rfl

theorem receive_waiting (message : NetworkMessage) :
    (waiting configuration peer nonce messages).receive nonce message =
      some (.resume nonce (dispatch nonce (progress messages) message
        { summary configuration peer messages with
          state := (summary configuration peer messages).state.onReceive message })) := by
  rw [waiting, handshakeRound_eq]
  rfl

/-- A round that reads a looping version fails and writes nothing. -/
theorem dispatch_loops (connection : Connection) (state : HandshakeState)
    {version : VersionMessage} (equal : version.nonce = nonce) :
    dispatch nonce state (.version version) connection =
      .done connection (.error .connectionLoop) := by
  change handleVersionMessage version nonce state connection = _
  unfold handleVersionMessage
  rw [if_pos equal]
  rfl

theorem next_loops {version : VersionMessage} (equal : version.nonce = nonce)
    (written : List NetworkMessage) :
    Transcript.next nonce ⟨waiting configuration peer nonce messages, messages, written⟩
        (.version version) =
      ⟨.returned (summary configuration peer messages) (.error .connectionLoop),
        messages ++ [.version version], written⟩ := by
  unfold Transcript.next
  rw [receive_waiting]
  simp only [Transcript.settle]
  rw [flush_resume, dispatch_loops _ _ equal]
  simp [Handshake.resume, ConnectionState.onReceive]

theorem next_dispatch (running : ¬ Exchanged messages) (other : ¬ Loops nonce [message])
    (greeting : NetworkMessage) :
    Transcript.next nonce
        ⟨waiting configuration peer nonce messages, messages,
          greeting :: answers configuration messages⟩ message =
      ⟨.resume nonce (.done (summary configuration peer (messages ++ [message]))
          (.ok (progress (messages ++ [message])))),
        messages ++ [message], greeting :: answers configuration (messages ++ [message])⟩ := by
  obtain ⟨writes, grown, served⟩ := serves_dispatch configuration peer running other
  unfold Transcript.next
  rw [receive_waiting]
  simp only [Transcript.settle]
  rw [flush_resume, show Process.serve _ _ = _ from served, written_map, grown]
  rfl

/-! ## The whole loop -/

theorem transcript_concat :
    transcript configuration peer nonce unixTimestamp (messages ++ [message]) =
      (transcript configuration peer nonce unixTimestamp messages).next nonce message := by
  rw [transcript, List.foldl_append]
  rfl

theorem loops_append {before after : List NetworkMessage} :
    Loops nonce (before ++ after) ↔ Loops nonce before ∨ Loops nonce after := by
  unfold Loops
  constructor
  · rintro ⟨version, member, equal⟩
    rcases List.mem_append.mp member with left | right
    · exact .inl ⟨version, left, equal⟩
    · exact .inr ⟨version, right, equal⟩
  · rintro (⟨version, member, equal⟩ | ⟨version, member, equal⟩)
    · exact ⟨version, List.mem_append_left _ member, equal⟩
    · exact ⟨version, List.mem_append_right _ member, equal⟩

theorem Exchanged.append_right {before : List NetworkMessage} (exchanged : Exchanged before)
    (after : List NetworkMessage) : Exchanged (before ++ after) := by
  obtain ⟨⟨version, member⟩, verack⟩ := exchanged
  exact ⟨⟨version, List.mem_append_left _ member⟩, List.mem_append_left _ verack⟩

theorem Undecided.of_append {before after : List NetworkMessage}
    (undecided : Undecided nonce (before ++ after)) : Undecided nonce before :=
  ⟨fun loops => undecided.1 (loops_append.mpr (.inl loops)),
    fun exchanged => undecided.2 (exchanged.append_right after)⟩

/-- The version message that opens the handshake. -/
def opening (configuration : ConnectionConfiguration) (peer : Peer) (nonce : UInt64)
    (unixTimestamp : Int64) : NetworkMessage :=
  (Connection.new peer configuration).createVersionMessage nonce unixTimestamp

/-- The first version message, if it carries another nonce. -/
def handledVersion (nonce : UInt64) (messages : List NetworkMessage) : Option VersionMessage :=
  match firstVersion messages with
  | none => none
  | some version => if version.nonce = nonce then none else some version

/-- What a handshake is when it has been offered a list of messages: still
waiting for more, or returned at the first message that decides it. -/
inductive Stage (configuration : ConnectionConfiguration) (peer : Peer) (nonce : UInt64)
    (greeting : NetworkMessage) : List NetworkMessage → Transcript → Prop where
  | reading {messages : List NetworkMessage} (undecided : Undecided nonce messages) :
      Stage configuration peer nonce greeting messages
        ⟨waiting configuration peer nonce messages, messages,
          greeting :: answers configuration messages⟩
  | finished {before : List NetworkMessage} {message : NetworkMessage}
      (after : List NetworkMessage) (undecided : Undecided nonce before)
      (other : ¬ Loops nonce [message]) (exchanged : Exchanged (before ++ [message])) :
      Stage configuration peer nonce greeting (before ++ [message] ++ after)
        ⟨.returned (summary configuration peer (before ++ [message])) (.ok ()),
          before ++ [message], greeting :: answers configuration (before ++ [message])⟩
  | looped {before : List NetworkMessage} {version : VersionMessage}
      (after : List NetworkMessage) (undecided : Undecided nonce before)
      (equal : version.nonce = nonce) :
      Stage configuration peer nonce greeting (before ++ [.version version] ++ after)
        ⟨.returned (summary configuration peer before) (.error .connectionLoop),
          before ++ [.version version], greeting :: answers configuration before⟩

theorem stage_concat {greeting : NetworkMessage} {transcript : Transcript}
    (stage : Stage configuration peer nonce greeting messages transcript)
    (message : NetworkMessage) :
    Stage configuration peer nonce greeting (messages ++ [message])
      (transcript.next nonce message) := by
  cases stage with
  | reading undecided =>
      by_cases loops : Loops nonce [message]
      · obtain ⟨version, member, equal⟩ := loops
        rw [← List.mem_singleton.mp member, next_loops equal]
        simpa using Stage.looped [] undecided equal
      · rw [next_dispatch undecided.2 loops]
        by_cases exchanged : Exchanged (messages ++ [message])
        · rw [progress_of_exchanged exchanged]
          change Stage configuration peer nonce greeting (messages ++ [message])
            ⟨.returned _ (.ok ()), _, _⟩
          simpa using Stage.finished [] undecided loops exchanged
        · rw [resume_summary exchanged]
          refine .reading ⟨fun looped => ?_, exchanged⟩
          rcases loops_append.mp looped with earlier | now
          · exact undecided.1 earlier
          · exact loops now
  | finished after undecided other exchanged =>
      rw [List.append_assoc]
      exact .finished _ undecided other exchanged
  | looped after undecided equal =>
      rw [List.append_assoc]
      exact .looped _ undecided equal

theorem stage_transcript (configuration : ConnectionConfiguration) (peer : Peer) (nonce : UInt64)
    (unixTimestamp : Int64) (messages : List NetworkMessage) :
    Stage configuration peer nonce (opening configuration peer nonce unixTimestamp) messages
      (transcript configuration peer nonce unixTimestamp messages) := by
  induction messages using List.reverseRecOn with
  | nil => exact .reading ⟨nofun, fun exchanged => nomatch exchanged.2⟩
  | append_singleton messages message inductionHypothesis =>
      rw [transcript_concat]
      exact stage_concat inductionHypothesis message

theorem handledVersion_of_not_loops (unlooped : ¬ Loops nonce messages) :
    handledVersion nonce messages = firstVersion messages := by
  unfold handledVersion
  cases first : firstVersion messages with
  | none => rfl
  | some version =>
      apply if_neg
      exact fun equal => unlooped ⟨version, mem_of_firstVersion first, equal⟩

theorem Stage.written_eq {greeting : NetworkMessage} {transcript : Transcript}
    (stage : Stage configuration peer nonce greeting messages transcript) :
    transcript.written = greeting ::
      match handledVersion nonce transcript.consumed with
      | none => []
      | some version => reply configuration version := by
  cases stage with
  | reading undecided =>
      rw [handledVersion_of_not_loops undecided.1]
      rfl
  | finished after undecided other exchanged =>
      rw [handledVersion_of_not_loops]
      · rfl
      · intro loops
        rcases loops_append.mp loops with earlier | now
        · exact undecided.1 earlier
        · exact other now
  | @looped before version after undecided equal =>
      rw [answers, handledVersion, firstVersion_append]
      cases first : firstVersion before with
      | none => simp [firstVersion, equal]
      | some found =>
          have distinct : found.nonce ≠ nonce := fun same =>
            undecided.1 ⟨found, mem_of_firstVersion first, same⟩
          simp [distinct]

/-- A returned `Ok` has read a version and a verack, no looping version, and has
written the whole answer. -/
theorem Stage.exchanged {greeting : NetworkMessage} {transcript : Transcript}
    (stage : Stage configuration peer nonce greeting messages transcript)
    {connection : Connection} (returned : transcript.call = .returned connection (.ok ())) :
    Exchanged transcript.consumed ∧ ¬ Loops nonce transcript.consumed ∧
      ∃ version, firstVersion transcript.consumed = some version ∧
        transcript.written = greeting :: reply configuration version := by
  cases stage with
  | reading undecided => cases returned
  | looped after undecided equal => cases returned
  | @finished before message after undecided other exchanged =>
      refine ⟨exchanged, fun loops => ?_, ?_⟩
      · rcases loops_append.mp loops with earlier | now
        · exact undecided.1 earlier
        · exact other now
      · obtain ⟨⟨found, member⟩, -⟩ := exchanged
        cases first : firstVersion (before ++ [message]) with
        | none => exact absurd member (firstVersion_eq_none.mp first found)
        | some version => exact ⟨version, rfl, by simp [answers, first]⟩

/-- With successful reads and writes a handshake returns `Ok`, or
`ConnectionLoop` after a looping version. -/
theorem Stage.result_eq {greeting : NetworkMessage} {transcript : Transcript}
    (stage : Stage configuration peer nonce greeting messages transcript)
    {connection : Connection} {result : Except ConnectionError Unit}
    (returned : transcript.call = .returned connection result) :
    result = .ok () ∨ (result = .error .connectionLoop ∧ Loops nonce transcript.consumed) := by
  cases stage with
  | reading undecided => cases returned
  | finished after undecided other exchanged =>
      cases returned
      exact .inl rfl
  | looped after undecided equal =>
      cases returned
      exact .inr ⟨rfl, _, List.mem_append_right _ List.mem_cons_self, equal⟩

/-- A handshake reads its messages from the first on. -/
theorem Stage.consumed_prefix {greeting : NetworkMessage} {transcript : Transcript}
    (stage : Stage configuration peer nonce greeting messages transcript) :
    transcript.consumed <+: messages := by
  cases stage with
  | reading undecided => exact List.prefix_rfl
  | finished after undecided other exchanged => exact List.prefix_append _ _
  | looped after undecided equal => exact List.prefix_append _ _

/-- A call that still runs has read everything and is undecided. -/
theorem Stage.undecided {greeting : NetworkMessage} {transcript : Transcript}
    (stage : Stage configuration peer nonce greeting messages transcript)
    {process : Process Connection Request Answer (Except ConnectionError HandshakeState)}
    (running : transcript.call = .running process) : Undecided nonce messages := by
  cases stage with
  | reading undecided => exact undecided
  | finished after undecided other exchanged => cases running
  | looped after undecided equal => cases running

theorem heard_negotiation (preferences : FeaturePreferences) (version : UInt32)
    (feature : Feature) :
    heard (negotiation preferences version) feature.message =
      feature.offered preferences version := by
  unfold negotiation Feature.all
  generalize Feature.offered preferences version = offered
  simp only [List.filter_cons, List.filter_nil]
  cases first : offered .addrV2 <;> cases second : offered .sendHeaders <;>
    cases third : offered .wtxidRelay <;> cases feature <;>
    simp [heard, Feature.message, first, second, third]

theorem heard_answers (configuration : ConnectionConfiguration) (messages : List NetworkMessage)
    (feature : Feature) :
    heard (answers configuration messages) feature.message =
      announced configuration messages feature := by
  unfold answers announced
  cases firstVersion messages with
  | none => rfl
  | some version =>
      change heard (_ ++ [.verack]) _ = _
      rw [heard_append, heard_negotiation, heard_singleton]
      cases feature <;> simp [Feature.message]

theorem stateOf_summary (configuration : ConnectionConfiguration) (peer : Peer)
    (messages : List NetworkMessage) (feature : Feature) :
    stateOf (summary configuration peer messages).state feature =
      featureSummary configuration messages feature := by
  cases feature <;> rfl

end Rounds

/-! ## Sequences of messages -/

theorem take_take_seq (input : Stream'.Seq NetworkMessage) {shorter longer : Nat}
    (le : shorter ≤ longer) : (input.take longer).take shorter = input.take shorter := by
  apply List.ext_getElem?
  intro index
  rw [List.getElem?_take, Stream'.Seq.getElem?_take, Stream'.Seq.getElem?_take]
  by_cases below : index < shorter
  · rw [if_pos below, if_pos (by omega), if_pos below]
  · rw [if_neg below, if_neg below]

section Sequences

variable {input : Stream'.Seq NetworkMessage} {nonce : UInt64}

theorem take_split (input : Stream'.Seq NetworkMessage) {shorter longer : Nat}
    (le : shorter ≤ longer) :
    ∃ rest, input.take longer = input.take shorter ++ rest :=
  ⟨(input.take longer).drop shorter, by
    rw [← take_take_seq input le, List.take_append_drop]⟩

theorem Undecided.take {shorter longer : Nat} (undecided : Undecided nonce (input.take longer))
    (le : shorter ≤ longer) : Undecided nonce (input.take shorter) := by
  obtain ⟨rest, split⟩ := take_split input le
  rw [split] at undecided
  exact undecided.of_append

/-- A prefix of what was offered is the sequence cut at some length. -/
theorem prefix_take {count : Nat} {before after : List NetworkMessage}
    (split : before ++ after = input.take count) :
    before.length ≤ count ∧ before = input.take before.length := by
  have bound : before.length ≤ count := by
    have total : (input.take count).length ≤ count := Stream'.Seq.length_take_le
    rw [← split, List.length_append] at total
    omega
  refine ⟨bound, ?_⟩
  rw [← take_take_seq input bound, ← split, List.take_left]

/-- The handshake is decided by the prefix of length `length` and no shorter
one. -/
structure DecidedAt (nonce : UInt64) (input : Stream'.Seq NetworkMessage) (length : Nat) :
    Prop where
  decided : ¬ Undecided nonce (input.take length)
  first : ∀ shorter < length, Undecided nonce (input.take shorter)

theorem DecidedAt.unique {left right : Nat} (here : DecidedAt nonce input left)
    (there : DecidedAt nonce input right) : left = right := by
  rcases Nat.lt_trichotomy left right with lt | same | gt
  · exact absurd (there.first left lt) here.decided
  · exact same
  · exact absurd (here.first right gt) there.decided

theorem decidedAt_exchanged {length : Nat} (exchanged : Exchanged (input.take length))
    (earlier : ∀ shorter < length, ¬ Exchanged (input.take shorter))
    (unlooped : ¬ Loops nonce (input.take length)) : DecidedAt nonce input length := by
  refine ⟨fun undecided => undecided.2 exchanged, fun shorter lt => ⟨?_, earlier shorter lt⟩⟩
  intro loops
  obtain ⟨rest, split⟩ := take_split input lt.le
  apply unlooped
  rw [split]
  exact loops_append.mpr (.inl loops)

theorem decidedAt_loops {length : Nat} (loops : Loops nonce (input.take length))
    (earlier : ∀ shorter < length,
      ¬ Loops nonce (input.take shorter) ∧ ¬ Exchanged (input.take shorter)) :
    DecidedAt nonce input length :=
  ⟨fun undecided => undecided.1 loops, earlier⟩

/-- A list that is decided by its last message ends a prefix that decides. -/
theorem decidedAt_snoc {count : Nat} {before after : List NetworkMessage}
    {message : NetworkMessage} (undecided : Undecided nonce before)
    (decided : ¬ Undecided nonce (before ++ [message]))
    (split : before ++ [message] ++ after = input.take count) :
    (before ++ [message]).length ≤ count ∧
      before ++ [message] = input.take (before ++ [message]).length ∧
      DecidedAt nonce input (before ++ [message]).length := by
  obtain ⟨bound, here⟩ := prefix_take split
  refine ⟨bound, here, by rw [← here]; exact decided, fun shorter lt => ?_⟩
  have earlier : before = input.take before.length := by
    rw [List.append_assoc] at split
    exact (prefix_take split).2
  rw [earlier] at undecided
  apply undecided.take
  rw [List.length_append, List.length_singleton] at lt
  omega

/-- A stage of a prefix of the sequence, by the prefix that decides it. -/
theorem Stage.verdict {configuration : ConnectionConfiguration} {peer : Peer}
    {greeting : NetworkMessage} {messages : List NetworkMessage} {transcript : Transcript}
    {count : Nat} (stage : Stage configuration peer nonce greeting messages transcript)
    (offered : messages = input.take count) :
    (Undecided nonce (input.take count) ∧ transcript.consumed = input.take count ∧
        transcript.call = waiting configuration peer nonce (input.take count)) ∨
      (∃ length ≤ count, DecidedAt nonce input length ∧
        transcript.consumed = input.take length ∧ Exchanged (input.take length) ∧
        ¬ Loops nonce (input.take length) ∧
        transcript.call =
          .returned (summary configuration peer transcript.consumed) (.ok ())) ∨
      (∃ length ≤ count, DecidedAt nonce input length ∧
        transcript.consumed = input.take length ∧ Loops nonce (input.take length) ∧
        ∃ connection, transcript.call = .returned connection (.error .connectionLoop)) := by
  cases stage with
  | reading undecided =>
      rw [offered] at undecided
      exact .inl ⟨undecided, offered, by rw [offered]⟩
  | finished after undecided other exchanged =>
      obtain ⟨bound, here, decidedAt⟩ := decidedAt_snoc undecided
        (fun undecided => undecided.2 exchanged) offered
      refine .inr (.inl ⟨_, bound, decidedAt, here, ?_, ?_, rfl⟩)
      · rw [← here]
        exact exchanged
      · rw [← here]
        intro loops
        rcases loops_append.mp loops with earlier | now
        · exact undecided.1 earlier
        · exact other now
  | @looped before version after undecided equal =>
      have loops : Loops nonce (before ++ [.version version]) :=
        ⟨version, List.mem_append_right _ List.mem_cons_self, equal⟩
      obtain ⟨bound, here, decidedAt⟩ := decidedAt_snoc undecided
        (fun undecided => undecided.1 loops) offered
      refine .inr (.inr ⟨_, bound, decidedAt, here, ?_, _, rfl⟩)
      rw [← here]
      exact loops

section Verdict

variable {configuration : ConnectionConfiguration} {peer : Peer} {greeting : NetworkMessage}
  {transcript : Transcript} {count : Nat}

theorem Stage.returned_ok_iff
    (stage : Stage configuration peer nonce greeting (input.take count) transcript) :
    (∃ connection, transcript.call = .returned connection (.ok ())) ↔
      ∃ length ≤ count, Exchanged (input.take length) ∧
        (∀ shorter < length, ¬ Exchanged (input.take shorter)) ∧
        ¬ Loops nonce (input.take length) := by
  constructor
  · rintro ⟨connection, returned⟩
    rcases stage.verdict rfl with ⟨_, _, call⟩ |
      ⟨length, bound, decidedAt, _, exchanged, unlooped, _⟩ | ⟨_, _, _, _, _, _, call⟩
    · rw [call] at returned
      cases returned
    · exact ⟨length, bound, exchanged, fun shorter lt => (decidedAt.first shorter lt).2, unlooped⟩
    · rw [call] at returned
      cases returned
  · rintro ⟨length, bound, exchanged, earlier, unlooped⟩
    have here := decidedAt_exchanged exchanged earlier unlooped
    rcases stage.verdict rfl with ⟨undecided, _, _⟩ | ⟨_, _, _, _, _, _, call⟩ |
      ⟨_, _, there, _, loops, _⟩
    · exact absurd (undecided.take bound) here.decided
    · exact ⟨_, call⟩
    · rw [there.unique here] at loops
      exact absurd loops unlooped

theorem Stage.returned_loop_iff
    (stage : Stage configuration peer nonce greeting (input.take count) transcript) :
    (∃ connection, transcript.call = .returned connection (.error .connectionLoop)) ↔
      ∃ length ≤ count, Loops nonce (input.take length) ∧
        ∀ shorter < length,
          ¬ Loops nonce (input.take shorter) ∧ ¬ Exchanged (input.take shorter) := by
  constructor
  · rintro ⟨connection, returned⟩
    rcases stage.verdict rfl with ⟨_, _, call⟩ | ⟨_, _, _, _, _, _, call⟩ |
      ⟨length, bound, decidedAt, _, loops, _⟩
    · rw [call] at returned
      cases returned
    · rw [call] at returned
      cases returned
    · exact ⟨length, bound, loops, decidedAt.first⟩
  · rintro ⟨length, bound, loops, earlier⟩
    have here := decidedAt_loops loops earlier
    rcases stage.verdict rfl with ⟨undecided, _, _⟩ | ⟨_, _, there, _, _, unlooped, _⟩ |
      ⟨_, _, _, _, _, returned⟩
    · exact absurd (undecided.take bound) here.decided
    · rw [there.unique here] at unlooped
      exact absurd loops unlooped
    · exact returned

theorem Stage.reading_iff
    (stage : Stage configuration peer nonce greeting (input.take count) transcript) :
    (∃ connection answered, transcript.call = .running (.ask connection .read answered)) ↔
      ¬ Loops nonce (input.take count) ∧ ¬ Exchanged (input.take count) := by
  constructor
  · rintro ⟨connection, answered, running⟩
    rcases stage.verdict rfl with ⟨undecided, _, _⟩ | ⟨_, _, _, _, _, _, call⟩ |
      ⟨_, _, _, _, _, _, call⟩
    · exact undecided
    · rw [call] at running
      cases running
    · rw [call] at running
      cases running
  · intro undecided
    rcases stage.verdict rfl with ⟨_, _, call⟩ | ⟨length, bound, decidedAt, _⟩ |
      ⟨length, bound, decidedAt, _⟩
    · rw [call, waiting, handshakeRound_eq]
      exact ⟨_, _, rfl⟩
    · exact absurd (Undecided.take undecided bound) decidedAt.decided
    · exact absurd (Undecided.take undecided bound) decidedAt.decided

theorem Stage.consumed_eq
    (stage : Stage configuration peer nonce greeting (input.take count) transcript) :
    ∃ length ≤ count, transcript.consumed = input.take length ∧
      (∀ shorter < length, Undecided nonce (input.take shorter)) ∧
      (Undecided nonce (input.take length) → input.take length = input.take count) := by
  rcases stage.verdict rfl with ⟨undecided, consumed, _⟩ |
    ⟨length, bound, decidedAt, consumed, _⟩ | ⟨length, bound, decidedAt, consumed, _⟩
  · exact ⟨count, le_rfl, consumed, fun shorter lt => undecided.take lt.le, fun _ => rfl⟩
  · exact ⟨length, bound, consumed, decidedAt.first, fun still => absurd still decidedAt.decided⟩
  · exact ⟨length, bound, consumed, decidedAt.first, fun still => absurd still decidedAt.decided⟩

end Verdict

end Sequences

/-! ## The outcome -/

/-- What `Ok` leaves in the connection. -/
theorem Stage.connection_eq {configuration : ConnectionConfiguration} {peer : Peer}
    {nonce : UInt64} {greeting : VersionMessage} {messages : List NetworkMessage}
    {transcript : Transcript}
    (stage : Stage configuration peer nonce (.version greeting) messages transcript)
    {connection : Connection} (returned : transcript.call = .returned connection (.ok ())) :
    ∃ version, firstVersion transcript.consumed = some version ∧
      connection.state.effectiveProtocolVersion =
        .known (min configuration.localVersion version.version) ∧
      connection.peer = ⟨peer.address, peer.port, .known version.services,
        .known version.version⟩ ∧
      ∀ feature, stateOf connection.state feature =
        .recording (heard transcript.written feature.message)
          (heard transcript.consumed feature.message) := by
  obtain ⟨-, -, version, first, written⟩ := stage.exchanged returned
  have ends : connection = summary configuration peer transcript.consumed := by
    cases stage with
    | reading undecided => cases returned
    | looped after undecided equal => cases returned
    | finished after undecided other exchanged =>
        cases returned
        rfl
  refine ⟨version, first, ?_, ?_, fun feature => ?_⟩
  · simp [ends, summary, versionSummary, first, effectiveVersion]
  · simp [ends, summary, peerSummary, first]
  · have announces : heard transcript.written feature.message =
        announced configuration transcript.consumed feature := by
      rw [← heard_answers, written, answers, first]
      cases feature <;> simp [heard, Feature.message]
    rw [announces, ends]
    exact stateOf_summary configuration peer transcript.consumed feature

/-- For every sequence of messages read from the peer, with reads and writes
succeeding: when the handshake returns `Ok` or `ConnectionLoop`, and when it
keeps reading; how much of the sequence it has read; everything it has written;
and the connection that `Ok` leaves. -/
theorem handshake_outcome (configuration : ConnectionConfiguration) (peer : Peer)
    (nonce : UInt64) (unixTimestamp : Int64) (input : Stream'.Seq NetworkMessage)
    (count : Nat) :
    let result := transcript configuration peer nonce unixTimestamp (input.take count)
    ((∃ connection, result.call = .returned connection (.ok ())) ↔
      ∃ length ≤ count, Exchanged (input.take length) ∧
        (∀ shorter < length, ¬ Exchanged (input.take shorter)) ∧
        ¬ Loops nonce (input.take length)) ∧
    ((∃ connection, result.call = .returned connection (.error .connectionLoop)) ↔
      ∃ length ≤ count, Loops nonce (input.take length) ∧
        ∀ shorter < length,
          ¬ Loops nonce (input.take shorter) ∧ ¬ Exchanged (input.take shorter)) ∧
    ((∃ connection answered, result.call = .running (.ask connection .read answered)) ↔
      ¬ Loops nonce (input.take count) ∧ ¬ Exchanged (input.take count)) ∧
    (∃ length ≤ count, result.consumed = input.take length ∧
      (∀ shorter < length, Undecided nonce (input.take shorter)) ∧
      (Undecided nonce (input.take length) → input.take length = input.take count)) ∧
    (result.written = opening configuration peer nonce unixTimestamp ::
      match handledVersion nonce result.consumed with
      | none => []
      | some version =>
          negotiation configuration.featurePreferences
            (min configuration.localVersion version.version) ++ [.verack]) ∧
    ∀ connection, result.call = .returned connection (.ok ()) →
      ∃ version, firstVersion result.consumed = some version ∧
        connection.state.effectiveProtocolVersion =
          .known (min configuration.localVersion version.version) ∧
        connection.peer = ⟨peer.address, peer.port, .known version.services,
          .known version.version⟩ ∧
        ∀ feature, stateOf connection.state feature =
          .recording (heard result.written feature.message)
            (heard result.consumed feature.message) := by
  intro result
  have stage : Stage configuration peer nonce (opening configuration peer nonce unixTimestamp)
      (input.take count) result :=
    stage_transcript configuration peer nonce unixTimestamp (input.take count)
  exact ⟨stage.returned_ok_iff, stage.returned_loop_iff, stage.reading_iff, stage.consumed_eq,
    stage.written_eq, fun _ returned => stage.connection_eq returned⟩

end BitcoinPeers.Connection

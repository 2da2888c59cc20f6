import BitcoinPeers.Connection.Stream

/-!
Contract: what a peer reads of a handshake that may break off.

Owns:
- a stream of whole messages with a torn one at its end;
- that a reader at the other side of the socket, in any run of reads, returns
  messages the handshake handed over, all but at most the last, and then the end
  of the stream, never a part of a message.

`encode::serialize` and `encode::deserialize` are assumed of the messages handed
over only.
-/

namespace BitcoinPeers.Connection

open BitcoinPeers.Foundation BitcoinPeers.Transport

/-! ## Torn streams -/

/-- A part of a message is no frame. -/
theorem Codec.Sound.cutFrame_torn {codec : Codec} {message : NetworkMessage}
    (sound : codec.Sound message) {torn : List UInt8} (begins : torn <+: codec.encode message)
    (part : torn ≠ codec.encode message) : ∃ place, Transport.cutFrame torn = .error place := by
  obtain ⟨missing, whole⟩ := begins
  cases cut : Transport.cutFrame torn with
  | error place => exact ⟨place, rfl⟩
  | ok pair =>
      obtain ⟨frame, rest⟩ := pair
      have longer := cutFrame_more cut missing
      have entire := sound.cutFrame []
      rw [List.append_nil, ← whole, longer, Except.ok.injEq, Prod.mk.injEq] at entire
      have nothing := (List.append_eq_nil_iff.mp entire.2).2
      rw [nothing, List.append_nil] at whole
      exact absurd whole part

/-- In front of whole messages is the first of them. -/
theorem Codec.Sound.front_cons {codec : Codec} {message : NetworkMessage}
    (sound : codec.Sound message) (later : List NetworkMessage) (rest : List UInt8) :
    front codec.deserialize codec.magic (codec.encodeAll (message :: later) ++ rest) =
      ⟨.ok message, codec.encodeAll later ++ rest⟩ := by
  rw [Codec.encodeAll_cons, List.append_assoc, front, sound.cutFrame]
  exact congrArg (Completion.mk · _) sound.decodeFrame

/-- Reads of whole messages and a torn one: the messages, and then the end of the
stream. -/
theorem replay_torn {codec : Codec} {messages : List NetworkMessage}
    (sound : ∀ message ∈ messages, codec.Sound message) {torn : List UInt8} {place : String}
    (cut : cutFrame torn = .error place) (count : Nat) :
    (replay codec.deserialize codec.magic (codec.encodeAll messages ++ torn) count).map
        Completion.result =
      (messages.map Except.ok ++
        List.replicate count (Except.error (closedWhile place))).take count := by
  induction count generalizing messages with
  | zero => rfl
  | succ count inductionHypothesis =>
      cases messages with
      | nil =>
          have ended : front codec.deserialize codec.magic torn =
              ⟨.error (closedWhile place), []⟩ := by rw [front, cut]
          have later := inductionHypothesis sound
          rw [Codec.encodeAll_nil, List.nil_append] at later ⊢
          rw [replay, left, ended, List.map_cons, later]
          simp [List.replicate_succ]
      | cons message rest =>
          have first := (sound message List.mem_cons_self).front_cons rest torn
          rw [replay, left, first, List.map_cons,
            inductionHypothesis fun other member => sound other (List.mem_cons_of_mem _ member)]
          simp [List.replicate_succ', ← List.append_assoc, List.take_append_of_le_length]

/-! ## The bytes of a handshake -/

/-- The bytes sent are whole messages and a torn one. -/
structure TornAt (codec : Codec) (course : Course Channel) (messages : List NetworkMessage)
    (place : String) : Prop where
  most : handed course.events.dropLast <+: messages
  some : messages <+: handed course.events
  all : (∀ event ∈ course.events, event.failure = none) → messages = handed course.events
  sent : ∃ torn, course.channel.sink = codec.encodeAll messages ++ torn ∧
    cutFrame torn = .error place

theorem Account.torn {codec : Codec} {party : Party} {stream : List UInt8} {course : Course Channel}
    (account : Account codec party stream course)
    (sound : ∀ message ∈ handed course.events, codec.Sound message) :
    ∃ messages place, TornAt codec course messages place := by
  obtain ⟨-, -, begun, sent, whole⟩ := account
  by_cases entire : course.channel.sink = codec.encodeAll (handed course.events)
  · refine ⟨handed course.events, "header", ?_, List.prefix_rfl, fun _ => rfl, [], ?_, rfl⟩
    · rw [handed, handed]
      exact (List.dropLast_prefix _).filterMap _
    · rw [List.append_nil]
      exact entire
  · rcases List.eq_nil_or_concat course.events with none | ⟨init, final, split⟩
    · rw [none] at sent entire
      exact absurd (List.prefix_nil.mp sent) entire
    · rw [List.concat_eq_append] at split
      rw [split, List.dropLast_concat] at begun
      cases last : final.handed with
      | none =>
          have same : handed course.events = handed init := by
            rw [split, handed_concat, last, Option.toList_none, List.append_nil]
          rw [same] at sent entire
          exact absurd (begun.eq_of_length_le sent.length_le).symm entire
      | some message =>
          have same : handed course.events = handed init ++ [message] := by
            rw [split, handed_concat, last, Option.toList_some]
          obtain ⟨torn, sink⟩ := begun
          rw [same, Codec.encodeAll_concat, ← sink] at sent entire
          have begins := (List.prefix_append_right_inj _).mp sent
          have part : torn ≠ codec.encode message := fun equal => entire (by rw [equal])
          have known := sound message (by rw [same]; simp)
          obtain ⟨place, cut⟩ := known.cutFrame_torn begins part
          refine ⟨handed init, place, ?_, ?_, fun smooth => ?_, torn, sink.symm, cut⟩
          · rw [split, List.dropLast_concat]
          · rw [same]
            exact List.prefix_append _ _
          · have complete := whole smooth
            rw [same, Codec.encodeAll_concat, ← sink] at complete
            exact absurd complete entire

/-- A handshake says part of its vocabulary, in order. -/
theorem due_sublist (party : Party) (messages : List NetworkMessage) :
    (party.greeting :: party.due messages).Sublist party.vocabulary := by
  unfold Party.due Party.vocabulary
  split
  · exact (List.nil_sublist _).cons_cons _
  · exact ((List.filter_sublist.map _).append (List.Sublist.refl _)).cons_cons _

/-- A handshake on any turns of its socket, broken off or not: a reader of what it
sent, in any run of reads, returns messages of the handshake in order, all that it
handed over but at most the last, and then the end of the stream. Without a
failure these are all of them. -/
theorem handshake_read_back (codec : Codec) (party : Party) (stream : List UInt8)
    (turns : List Turn) (attempts : List Transport.Attempt)
    (sound : ∀ message ∈ party.vocabulary, codec.Sound message) :
    let course := (Course.v1 codec party stream).after (v1Medium codec) party.nonce turns
    let completed := reads codec.deserialize (.joined (.new codec.magic)) course.channel.sink
      attempts
    ∃ messages place,
      messages <+: party.greeting :: party.due (consumed course.events) ∧
      handed course.events.dropLast <+: messages ∧
      ((∀ event ∈ course.events, event.failure = none) → messages = handed course.events) ∧
      completed.map Completion.result =
        (messages.map Except.ok ++ List.replicate completed.length
          (Except.error (closedWhile place))).take completed.length ∧
      attempts.countP (Attempt.patient course.channel.sink) ≤ completed.length := by
  intro course completed
  have account : Account codec party stream course := account_after codec party stream turns
  have spoken : ∀ message ∈ handed course.events, codec.Sound message := by
    intro message member
    apply sound
    exact (due_sublist party _).subset (account.report.handed.subset member)
  obtain ⟨messages, place, most, some, all, torn, sink, cut⟩ := account.torn spoken
  refine ⟨messages, place, some.trans account.report.handed, most, all, ?_,
    countP_patient_le_reads codec.deserialize (Nat.le_refl _) _ attempts⟩
  have replayed := reads_replay codec.deserialize (.joined (.new codec.magic))
    course.channel.sink attempts
  have known : ∀ message ∈ messages, codec.Sound message :=
    fun message member => spoken message (some.subset member)
  rw [← replay_torn known cut, ← sink]
  exact congrArg _ replayed

/-! ## A torn version message -/

theorem sound_vocabulary {codec : Codec} {parties : Side → Party}
    (speaks : Wire.Speaks codec parties) (side : Side) :
    ∀ message ∈ (parties side).vocabulary, codec.Sound message := by
  intro message member
  rcases List.mem_cons.mp member with rfl | later
  · exact speaks.greeting side
  · rcases List.mem_append.mp later with offered | final
    · obtain ⟨feature, -, rfl⟩ := List.mem_map.mp offered
      exact speaks.feature feature
    · rw [List.mem_singleton.mp final]
      exact speaks.verack

/-- The socket takes the version message, and ten bytes of the answer to the peer's
version before it fails. -/
def tornTurns : List Turn :=
  [⟨⟨.ok (), .ok ()⟩, []⟩,
    ⟨⟨.ok (), .ok ()⟩, List.replicate 200 (.ready 0)⟩,
    ⟨⟨.error (10, ⟨.other 32, "Broken pipe (os error 32)"⟩), .ok ()⟩, []⟩]

/-- The left client's handshake over this socket, after the right one's version. -/
def tornCourse : Course Channel :=
  (Course.v1 Wire.sampleCodec (Wire.samples .left)
    (Wire.sampleCodec.encode (Wire.samples .right).greeting)).after
      (v1Medium Wire.sampleCodec) (Wire.samples .left).nonce tornTurns

/-- Two reads of what the socket took. -/
def tornReads : List Completion :=
  reads Wire.sampleCodec.deserialize (.joined (.new mainnet)) tornCourse.channel.sink
    (List.replicate 2 ⟨false, List.replicate 200 (.ready 0)⟩)

theorem tornCourse_handed :
    handed tornCourse.events.dropLast = [(Wire.samples .left).greeting] := by
  decide +kernel

theorem tornReads_kinds :
    (tornReads.map Completion.result).map Except.toBool = [true, false] := by
  decide +kernel

theorem handshake_read_back_sample :
    ∃ place, tornReads.map Completion.result =
      [.ok (Wire.samples .left).greeting, .error (closedWhile place)] := by
  have kinds := tornReads_kinds
  have wrote := tornCourse_handed
  have length : tornReads.length = 2 := by simpa using congrArg List.length kinds
  unfold tornReads tornCourse at kinds length ⊢
  unfold tornCourse at wrote
  obtain ⟨messages, place, -, most, -, results, -⟩ := handshake_read_back Wire.sampleCodec
    (Wire.samples .left) (Wire.sampleCodec.encode (Wire.samples .right).greeting) tornTurns
    (List.replicate 2 ⟨false, List.replicate 200 (.ready 0)⟩)
    (sound_vocabulary Wire.sample_speaks .left)
  rw [wrote] at most
  obtain ⟨more, rfl⟩ := most
  refine ⟨place, ?_⟩
  have codec : Wire.sampleCodec.magic = mainnet := rfl
  rw [codec, length] at results
  cases more with
  | nil => exact results
  | cons message rest =>
      rw [results] at kinds
      cases kinds

end BitcoinPeers.Connection

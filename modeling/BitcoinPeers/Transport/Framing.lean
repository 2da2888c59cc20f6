import BitcoinPeers.Transport.V1

/-!
Contract: the v1 reader against a parser of the whole input.

Owns:
- the reference parser: cut the input into frames, decode each, stop at the
  first rejected frame or at the end of the input;
- runs of reads, each with its own outcomes and possibly on a transport just
  split;
- that the reads of any run complete with the results of the reference parser.

Does not own: what a frame decodes to.
-/

namespace BitcoinPeers.Transport

open BitcoinPeers.Foundation

/-! ## The reference parser -/

/-- The first frame of some bytes and what follows it, or the part of the frame
that the bytes end in. -/
def cutFrame (bytes : List UInt8) : Except String (List UInt8 × List UInt8) :=
  let header := bytes.take HEADER_SIZE
  let payload := (bytes.drop HEADER_SIZE).take (payloadLength header)
  if header.length < HEADER_SIZE then .error "header"
  else if payload.length < payloadLength header then .error "payload"
  else .ok (header ++ payload, (bytes.drop HEADER_SIZE).drop (payloadLength header))

/-- A completed read: its result and the bytes of the input left unread. -/
structure Completion where
  result : Except TransportError NetworkMessage
  unread : List UInt8

/-- A completion of the reference parser, with the bytes it took. -/
structure Parsed extends Completion where
  frame : List UInt8

theorem cutFrame_append {bytes frame rest : List UInt8} (cut : cutFrame bytes = .ok (frame, rest)) :
    frame ++ rest = bytes ∧ HEADER_SIZE ≤ frame.length := by
  unfold cutFrame at cut
  dsimp only at cut
  split at cut
  next => cases cut
  next whole =>
    split at cut
    next => cases cut
    next =>
      cases cut
      constructor
      · rw [List.append_assoc, List.take_append_drop, List.take_append_drop]
      · rw [List.length_append]
        omega

theorem cutFrame_shorter {bytes frame rest : List UInt8}
    (cut : cutFrame bytes = .ok (frame, rest)) : rest.length < bytes.length := by
  obtain ⟨joined, whole⟩ := cutFrame_append cut
  have length := congrArg List.length joined
  rw [List.length_append] at length
  unfold HEADER_SIZE at whole
  omega

section Parse

variable (deserialize : Deserialize) (networkMagic : Magic)

/-- The result of a whole frame. -/
def decodeFrame (frame : List UInt8) : Except TransportError NetworkMessage :=
  match deserialize frame with
  | .error error => .error (.deserialize error)
  | .ok raw => if raw.magic ≠ networkMagic then .error .magicMismatch else .ok raw.payload

/-- Parse the whole input. -/
def parse (bytes : List UInt8) : List Parsed :=
  match _cut : cutFrame bytes with
  | .error part => [⟨⟨.error (closedWhile part), []⟩, bytes⟩]
  | .ok (frame, rest) =>
      match decodeFrame deserialize networkMagic frame with
      | .error error => [⟨⟨.error error, rest⟩, frame⟩]
      | .ok message => ⟨⟨.ok message, rest⟩, frame⟩ :: parse rest
termination_by bytes.length
decreasing_by exact cutFrame_shorter _cut

/-- The parser by cases on the first frame. -/
theorem parse_eq (bytes : List UInt8) :
    parse deserialize networkMagic bytes =
      match cutFrame bytes with
      | .error part => [⟨⟨.error (closedWhile part), []⟩, bytes⟩]
      | .ok (frame, rest) =>
          match decodeFrame deserialize networkMagic frame with
          | .error error => [⟨⟨.error error, rest⟩, frame⟩]
          | .ok message => ⟨⟨.ok message, rest⟩, frame⟩ :: parse deserialize networkMagic rest := by
  rw [parse]
  split
  next part cut => rw [cut]
  next frame rest cut => rw [cut]

/-- The parser's first completion takes a beginning of the input; what follows
it, if anything does, parses the rest. -/
theorem parse_first (bytes : List UInt8) :
    ∃ first later, parse deserialize networkMagic bytes = first :: later ∧
      first.frame ++ first.unread = bytes ∧
      (later = [] ∨ later = parse deserialize networkMagic first.unread) := by
  rw [parse_eq]
  cases cut : cutFrame bytes with
  | error part => exact ⟨_, _, rfl, List.append_nil bytes, .inl rfl⟩
  | ok pair =>
      have joined := (cutFrame_append cut).1
      dsimp only
      split
      next error rejected => exact ⟨_, _, rfl, joined, .inl rfl⟩
      next message accepted => exact ⟨_, _, rfl, joined, .inr rfl⟩

variable {deserialize networkMagic}

/-- Each completion of the parser leaves the input less the frames up to it. -/
theorem parse_unread {bytes : List UInt8} {position : Nat} {parsed : Parsed}
    (found : (parse deserialize networkMagic bytes)[position]? = some parsed) :
    (((parse deserialize networkMagic bytes).take (position + 1)).map Parsed.frame).flatten ++
      parsed.unread = bytes := by
  induction position generalizing bytes with
  | zero =>
      obtain ⟨first, later, parsing, joined, -⟩ :=
        parse_first deserialize networkMagic bytes
      rw [parsing, List.getElem?_cons_zero, Option.some.injEq] at found
      subst found
      simpa [parsing] using joined
  | succ position inductionHypothesis =>
      obtain ⟨first, later, parsing, joined, rfl | rfl⟩ :=
        parse_first deserialize networkMagic bytes
      · simp [parsing] at found
      · rw [parsing, List.getElem?_cons_succ] at found
        rw [parsing, List.take_succ_cons, List.map_cons, List.flatten_cons, List.append_assoc,
          inductionHypothesis found, joined]

end Parse

/-! ## Cutting by what is there -/

/-- Bytes that end in the header. -/
theorem cutFrame_header {bytes : List UInt8} (short : bytes.length < HEADER_SIZE) :
    cutFrame bytes = .error "header" := by
  have length : (bytes.take HEADER_SIZE).length < HEADER_SIZE := by
    rw [List.length_take]
    omega
  unfold cutFrame
  exact if_pos length

theorem take_header_payloadLength {bytes : List UInt8} (whole : HEADER_SIZE ≤ bytes.length) :
    payloadLength (bytes.take HEADER_SIZE) = payloadLength bytes := by
  have length : (bytes.take HEADER_SIZE).length = HEADER_SIZE := List.length_take_of_le whole
  rw [← payloadLength_append (Nat.le_of_eq length.symm) (bytes.drop HEADER_SIZE),
    List.take_append_drop]

/-- Bytes that end in the payload. -/
theorem cutFrame_payload {bytes : List UInt8} (whole : HEADER_SIZE ≤ bytes.length)
    (short : bytes.length < HEADER_SIZE + payloadLength bytes) :
    cutFrame bytes = .error "payload" := by
  have header : ¬ (bytes.take HEADER_SIZE).length < HEADER_SIZE := by
    rw [List.length_take]
    omega
  have payload : ((bytes.drop HEADER_SIZE).take (payloadLength bytes)).length <
      payloadLength bytes := by
    rw [List.length_take, List.length_drop]
    omega
  unfold cutFrame
  dsimp only
  rw [if_neg header, take_header_payloadLength whole, if_pos payload]

/-- Bytes that start with a whole frame. -/
theorem cutFrame_frame {frame : List UInt8} (whole : HEADER_SIZE ≤ frame.length)
    (sized : frame.length = HEADER_SIZE + payloadLength frame) (rest : List UInt8) :
    cutFrame (frame ++ rest) = .ok (frame, rest) := by
  have long : HEADER_SIZE ≤ (frame ++ rest).length := by
    rw [List.length_append]
    omega
  have declared := take_header_payloadLength long
  rw [payloadLength_append whole] at declared
  have header : ¬ ((frame ++ rest).take HEADER_SIZE).length < HEADER_SIZE := by
    rw [List.length_take]
    omega
  have payload : ¬ (((frame ++ rest).drop HEADER_SIZE).take (payloadLength frame)).length <
      payloadLength frame := by
    rw [List.length_take, List.length_drop, List.length_append]
    omega
  unfold cutFrame
  dsimp only
  rw [if_neg header, declared, if_neg payload, ← List.take_add, List.drop_drop, ← sized,
    List.take_left, List.drop_left]

namespace PayloadBuffer

theorem started_held (payload : PayloadBuffer) : HEADER_SIZE ≤ payload.buffer.held.length := by
  rw [Filling.held_length]
  exact payload.started

/-- The input that ends before the buffer is full ends in the payload. -/
theorem cutFrame_short (payload : PayloadBuffer)
    (short : payload.buffer.filled < HEADER_SIZE + payload.payloadLen) :
    cutFrame payload.buffer.held = .error "payload" := by
  apply cutFrame_payload payload.started_held
  rw [payload.declared, Filling.held_length]
  exact short

/-- A full buffer is the first frame. -/
theorem cutFrame_full (payload : PayloadBuffer)
    (full : ¬ payload.buffer.filled < HEADER_SIZE + payload.payloadLen) (rest : List UInt8) :
    cutFrame (payload.buffer.held ++ rest) = .ok (payload.buffer.elements, rest) := by
  have everything := Filling.held_of_full full
  have started := payload.started_held
  have declared := payload.declared
  rw [everything] at started declared ⊢
  apply cutFrame_frame started
  rw [declared]
  exact payload.buffer.sized

end PayloadBuffer

/-! ## One call -/

section Call

variable (deserialize : Deserialize) (networkMagic : Magic)

/-- What a call does with the bytes that no call has returned yet: it keeps them,
or it completes as the parser's first completion and keeps the rest. -/
def Called.Follows (called : Called) (bytes : List UInt8) : Prop :=
  match called.call with
  | .cancelled => called.state.held ++ called.stream = bytes
  | .interrupted _ => called.state.held ++ called.stream = bytes
  | .finished result =>
      match cutFrame bytes with
      | .error part => result = .error (closedWhile part) ∧ called.stream = []
      | .ok (frame, rest) =>
          result = decodeFrame deserialize networkMagic frame ∧ called.stream = rest ∧
            ((∃ message, result = .ok message) → called.state.held = [])

theorem readPayload_follows (payload : PayloadBuffer) (stream : List UInt8)
    (outcomes : List (Filling.Outcome IoError)) :
    (readPayload deserialize networkMagic payload stream outcomes).Follows deserialize networkMagic
      (payload.buffer.held ++ stream) := by
  have same := payload.buffer.fill_held stream outcomes
  have full := payload.buffer.fill_full_iff stream outcomes
  rw [← same]
  unfold readPayload
  dsimp only
  cases stop : (payload.buffer.fill stream outcomes).stop with
  | cancelled => rfl
  | failed error => rfl
  | closed =>
      have drained := Filling.fill_closed stop
      have short : (payload.extend stream outcomes).buffer.filled <
          HEADER_SIZE + payload.payloadLen := by
        by_contra reached
        rw [full.mpr reached] at stop
        cases stop
      have cut := (payload.extend stream outcomes).cutFrame_short short
      unfold Called.Follows
      dsimp only
      rw [drained, List.append_nil]
      change cutFrame (payload.buffer.fill stream outcomes).buffer.held = _ at cut
      rw [cut]
      exact ⟨rfl, rfl⟩
  | full =>
      have cut := (payload.extend stream outcomes).cutFrame_full (full.mp stop)
        (payload.buffer.fill stream outcomes).stream
      change cutFrame ((payload.buffer.fill stream outcomes).buffer.held ++ _) =
        .ok ((payload.buffer.fill stream outcomes).buffer.elements, _) at cut
      unfold Called.Follows decodeFrame
      rw [cut]
      cases decoded : deserialize (payload.buffer.fill stream outcomes).buffer.elements with
      | error error => simp [decoded]
      | ok raw =>
          by_cases own : raw.magic = networkMagic
          · simp [decoded, own, V1ReceiveState.fresh, V1ReceiveState.held]
          · simp [decoded, own]

theorem readHeader_follows (header : Filling UInt8 HEADER_SIZE) (stream : List UInt8)
    (outcomes : List (Filling.Outcome IoError)) :
    (readHeader deserialize networkMagic header stream outcomes).Follows deserialize networkMagic
      (header.held ++ stream) := by
  have same := header.fill_held stream outcomes
  have full := header.fill_full_iff stream outcomes
  rw [← same]
  unfold readHeader
  dsimp only
  cases stop : (header.fill stream outcomes).stop with
  | cancelled => rfl
  | failed error => rfl
  | closed =>
      have drained := Filling.fill_closed stop
      have short : (header.fill stream outcomes).buffer.held.length < HEADER_SIZE := by
        rw [Filling.held_length]
        by_contra reached
        rw [full.mpr reached] at stop
        cases stop
      unfold Called.Follows
      dsimp only
      rw [drained, List.append_nil, cutFrame_header short]
      exact ⟨rfl, rfl⟩
  | full =>
      have followed := readPayload_follows deserialize networkMagic
        (.start (header.fill stream outcomes).buffer) (header.fill stream outcomes).stream
        (header.fill stream outcomes).outcomes
      rw [PayloadBuffer.held_start, ← Filling.held_of_full (full.mp stop)] at followed
      exact followed

theorem readMessage_follows (state : V1ReceiveState) (stream : List UInt8)
    (outcomes : List (Filling.Outcome IoError)) :
    (readMessage deserialize networkMagic state stream outcomes).Follows deserialize networkMagic
      (state.held ++ stream) := by
  cases state with
  | readingHeader header => exact readHeader_follows deserialize networkMagic header stream outcomes
  | readingPayload payload =>
      exact readPayload_follows deserialize networkMagic payload stream outcomes

variable {deserialize networkMagic} in
/-- A call that completes does so as the parser's first completion, and the next
call starts on what the parser parses next. -/
theorem Called.Follows.finished {called : Called} {bytes : List UInt8}
    {result : Except TransportError NetworkMessage}
    (followed : called.Follows deserialize networkMagic bytes)
    (ending : called.call = .finished result) :
    ∃ frame later, parse deserialize networkMagic bytes =
        ⟨⟨result, called.stream⟩, frame⟩ :: later ∧
      (later = [] ∨
        later = parse deserialize networkMagic (called.state.held ++ called.stream)) := by
  simp only [Called.Follows, ending] at followed
  rw [parse_eq]
  cases cut : cutFrame bytes with
  | error part =>
      simp only [cut] at followed
      obtain ⟨rfl, drained⟩ := followed
      exact ⟨bytes, [], by rw [drained], .inl rfl⟩
  | ok pair =>
      obtain ⟨frame, rest⟩ := pair
      simp only [cut] at followed
      obtain ⟨decoded, rfl, cleared⟩ := followed
      dsimp only
      rw [← decoded]
      cases result with
      | error error => exact ⟨frame, [], rfl, .inl rfl⟩
      | ok message => exact ⟨frame, _, rfl, .inr (by rw [cleared ⟨message, rfl⟩]; rfl)⟩

/-- A call whose reads all succeed, more of them than bytes left, completes. -/
theorem readPayload_finishes {payload : PayloadBuffer} {stream : List UInt8}
    {outcomes : List (Filling.Outcome IoError)}
    (ready : ∀ outcome ∈ outcomes, outcome.isReady = true)
    (enough : stream.length < outcomes.length) :
    ∃ result, (readPayload deserialize networkMagic payload stream outcomes).call =
      .finished result := by
  unfold readPayload
  rcases payload.buffer.fill_ready ready enough with closed | ⟨full, -⟩
  · simp only [closed]
    exact ⟨_, rfl⟩
  · simp only [full]
    split
    next => exact ⟨_, rfl⟩
    next => split <;> exact ⟨_, rfl⟩

theorem readMessage_finishes (state : V1ReceiveState) {stream : List UInt8}
    {outcomes : List (Filling.Outcome IoError)}
    (ready : ∀ outcome ∈ outcomes, outcome.isReady = true)
    (enough : stream.length < outcomes.length) :
    ∃ result, (readMessage deserialize networkMagic state stream outcomes).call =
      .finished result := by
  cases state with
  | readingPayload payload => exact readPayload_finishes deserialize networkMagic ready enough
  | readingHeader header =>
      unfold readMessage readHeader
      rcases header.fill_ready ready enough with closed | ⟨full, stillReady, stillEnough⟩
      · simp only [closed]
        exact ⟨_, rfl⟩
      · simp only [full]
        exact readPayload_finishes deserialize networkMagic stillReady stillEnough

theorem readPayload_stream_length_le (payload : PayloadBuffer) (stream : List UInt8)
    (outcomes : List (Filling.Outcome IoError)) :
    (readPayload deserialize networkMagic payload stream outcomes).stream.length ≤
      stream.length := by
  have shorter := payload.buffer.fill_stream_length_le stream outcomes
  unfold readPayload
  dsimp only
  split
  next => exact shorter
  next => exact shorter
  next => exact shorter
  next =>
    split
    next => exact shorter
    next => split <;> exact shorter

theorem readMessage_stream_length_le (state : V1ReceiveState) (stream : List UInt8)
    (outcomes : List (Filling.Outcome IoError)) :
    (readMessage deserialize networkMagic state stream outcomes).stream.length ≤
      stream.length := by
  cases state with
  | readingPayload payload =>
      exact readPayload_stream_length_le deserialize networkMagic payload stream outcomes
  | readingHeader header =>
      have shorter := header.fill_stream_length_le stream outcomes
      unfold readMessage readHeader
      dsimp only
      split
      next => exact shorter
      next => exact shorter
      next => exact shorter
      next =>
        exact (readPayload_stream_length_le deserialize networkMagic _ _ _).trans shorter

end Call

/-! ## Runs of reads -/

/-- One call of `read`, on a transport that may be split just before it. -/
structure Attempt where
  splitFirst : Bool
  outcomes : List (Filling.Outcome IoError)

namespace Attempt

/-- The transport the call is made on. -/
def prepare (attempt : Attempt) (halves : Halves) : Halves :=
  if attempt.splitFirst then halves.split else halves

@[simp] theorem reader_prepare (attempt : Attempt) (halves : Halves) :
    (attempt.prepare halves).reader = halves.reader := by
  unfold prepare
  split
  · exact halves.reader_split
  · rfl

/-- No read of the call fails, and it waits for one read more than the input has
bytes. -/
def patient (input : List UInt8) (attempt : Attempt) : Bool :=
  attempt.outcomes.all Filling.Outcome.isReady && decide (input.length < attempt.outcomes.length)

end Attempt

/-- The completion of a call that returned a result of its own. -/
def Called.completed (called : Called) : List Completion :=
  match called.call with
  | .cancelled => []
  | .interrupted _ => []
  | .finished result => [⟨result, called.stream⟩]

section Runs

variable (deserialize : Deserialize)

/-- The completed reads of a run of calls, in order. -/
def reads (halves : Halves) (stream : List UInt8) : List Attempt → List Completion
  | [] => []
  | attempt :: rest =>
      let halves := attempt.prepare halves
      let called := halves.read deserialize stream attempt.outcomes
      called.completed ++ reads (halves.keep called.state) called.stream rest

/-- The reads of a run complete as the parser does on the bytes held and
unread. -/
theorem reads_parse (halves : Halves) (stream : List UInt8) (attempts : List Attempt) :
    let completed := reads deserialize halves stream attempts
    let reference := parse deserialize halves.reader.networkMagic
      (halves.reader.receiveState.held ++ stream)
    completed.take reference.length =
      (reference.map Parsed.toCompletion).take completed.length := by
  induction attempts generalizing halves stream with
  | nil => simp [reads]
  | cons attempt rest inductionHypothesis =>
      have followed := readMessage_follows deserialize halves.reader.networkMagic
        halves.reader.receiveState stream attempt.outcomes
      simp only [reads, Halves.read, Attempt.reader_prepare]
      generalize readMessage deserialize halves.reader.networkMagic
        halves.reader.receiveState stream attempt.outcomes = called at followed ⊢
      have later := inductionHypothesis ((attempt.prepare halves).keep called.state) called.stream
      simp only [Halves.reader_keep, Attempt.reader_prepare] at later
      cases ending : called.call with
      | cancelled =>
          simp only [Called.Follows, ending] at followed
          rw [followed] at later
          simpa [Called.completed, ending] using later
      | interrupted error =>
          simp only [Called.Follows, ending] at followed
          rw [followed] at later
          simpa [Called.completed, ending] using later
      | finished result =>
          obtain ⟨frame, remaining, parsing, rfl | rfl⟩ := followed.finished ending
          · simp [Called.completed, ending, parsing]
          · simp [Called.completed, ending, parsing, later]

/-- Every patient call completes. -/
theorem countP_patient_le_reads {input stream : List UInt8}
    (within : stream.length ≤ input.length) (halves : Halves) (attempts : List Attempt) :
    attempts.countP (Attempt.patient input) ≤
      (reads deserialize halves stream attempts).length := by
  induction attempts generalizing halves stream with
  | nil => simp
  | cons attempt rest inductionHypothesis =>
      simp only [reads, Halves.read, Attempt.reader_prepare, List.length_append]
      have shorter := readMessage_stream_length_le deserialize halves.reader.networkMagic
        halves.reader.receiveState stream attempt.outcomes
      have later := inductionHypothesis (shorter.trans within) ((attempt.prepare halves).keep
        (readMessage deserialize halves.reader.networkMagic halves.reader.receiveState stream
          attempt.outcomes).state)
      by_cases patient : attempt.patient input = true
      · rw [List.countP_cons_of_pos patient]
        rw [Attempt.patient, Bool.and_eq_true, List.all_eq_true, decide_eq_true_eq] at patient
        obtain ⟨result, ending⟩ := readMessage_finishes deserialize halves.reader.networkMagic
          halves.reader.receiveState patient.1 (Nat.lt_of_le_of_lt within patient.2)
        simp only [Called.completed, ending, List.length_singleton]
        omega
      · rw [List.countP_cons_of_neg patient]
        omega

/-- Whatever pieces the input arrives in, whichever calls are cancelled or
interrupted and wherever the transport is split, the completed reads are those of
the reference parser, each leaves exactly the bytes after the frames so far, and
every patient call completes. -/
theorem reads_refine_framing (networkMagic : Magic) (input : List UInt8)
    (attempts : List Attempt) :
    let completed := reads deserialize (.joined (.new networkMagic)) input attempts
    let reference := parse deserialize networkMagic input
    completed.take reference.length =
        (reference.map Parsed.toCompletion).take completed.length ∧
      (∀ position completion, completed[position]? = some completion →
        position < reference.length →
        ((reference.take (position + 1)).map Parsed.frame).flatten ++ completion.unread = input) ∧
      attempts.countP (Attempt.patient input) ≤ completed.length := by
  intro completed reference
  have refined : completed.take reference.length =
      (reference.map Parsed.toCompletion).take completed.length :=
    reads_parse deserialize (.joined (.new networkMagic)) input attempts
  refine ⟨refined, ?_, countP_patient_le_reads deserialize (Nat.le_refl _) _ attempts⟩
  intro position completion found within
  have parsed : (reference.map Parsed.toCompletion)[position]? = some completion := by
    have reached := (List.getElem?_eq_some_iff.mp found).1
    rw [← List.getElem?_take_of_lt reached, ← refined, List.getElem?_take_of_lt within, found]
  rw [List.getElem?_map, Option.map_eq_some_iff] at parsed
  obtain ⟨actual, present, rfl⟩ := parsed
  exact parse_unread present

/-- Two empty frames: a call cancelled inside the first header, a split, a call
that fails before the header is whole, then three calls to the end of the
input. -/
example :
    let magic : Magic := ⟨[0xf9, 0xbe, 0xb4, 0xd9], rfl⟩
    let verack : Deserialize := fun _ => .ok ⟨magic, .verack⟩
    let slow : List (Filling.Outcome IoError) := List.replicate 25 (.ready 0)
    (reads verack (.joined (.new magic)) (List.replicate 48 0)
      [⟨false, [.ready 6]⟩, ⟨true, [.ready 0, .failed ⟨.other 4, "interrupted"⟩]⟩,
        ⟨false, slow⟩, ⟨false, slow⟩, ⟨false, slow⟩]).map
          (fun completion => (completion.result.isOk, completion.unread.length)) =
      [(true, 24), (true, 0), (false, 0)] := by
  decide

end Runs

end BitcoinPeers.Transport

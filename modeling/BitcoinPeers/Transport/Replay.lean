import BitcoinPeers.Transport.Framing

/-!
Contract: what a v1 reader returns in every run, also after a rejected frame.

Owns:
- `replay`, the completions of a reader as a function of the bytes it has not
  returned yet: only an accepted frame is left behind;
- that every run of reads completes as `replay` does;
- when a stream of complete frames is reported frame by frame.

Does not own: how a message becomes a frame.
-/

namespace BitcoinPeers.Transport

open BitcoinPeers.Foundation

/-! ## Completions by the bytes not returned yet -/

section Replay

variable (deserialize : Deserialize) (networkMagic : Magic)

/-- The completion of a read on some bytes. -/
def front (bytes : List UInt8) : Completion :=
  match cutFrame bytes with
  | .error part => ⟨.error (closedWhile part), []⟩
  | .ok (frame, rest) => ⟨decodeFrame deserialize networkMagic frame, rest⟩

/-- The bytes the next read works on: a read that fails keeps what it has. -/
def left (bytes : List UInt8) : List UInt8 :=
  match (front deserialize networkMagic bytes).result with
  | .ok _ => (front deserialize networkMagic bytes).unread
  | .error _ => bytes

/-- The first completions of a reader on some bytes. -/
def replay (bytes : List UInt8) : Nat → List Completion
  | 0 => []
  | count + 1 =>
      front deserialize networkMagic bytes :: replay (left deserialize networkMagic bytes) count

@[simp] theorem replay_length (bytes : List UInt8) (count : Nat) :
    (replay deserialize networkMagic bytes count).length = count := by
  induction count generalizing bytes with
  | zero => rfl
  | succ count inductionHypothesis => rw [replay, List.length_cons, inductionHypothesis]

/-- Completions are those of the bytes left by the ones before. -/
theorem replay_getElem? (bytes : List UInt8) {index count : Nat} (within : index < count) :
    (replay deserialize networkMagic bytes count)[index]? =
      some (front deserialize networkMagic ((left deserialize networkMagic)^[index] bytes)) := by
  induction count generalizing bytes index with
  | zero => omega
  | succ count inductionHypothesis =>
      cases index with
      | zero => rfl
      | succ index =>
          rw [replay, List.getElem?_cons_succ, Function.iterate_succ_apply]
          exact inductionHypothesis _ (by omega)

/-- After a failure nothing moves. -/
theorem left_iterate_of_error {bytes : List UInt8} {error : TransportError}
    (failed : (front deserialize networkMagic bytes).result = .error error) (count : Nat) :
    (left deserialize networkMagic)^[count] bytes = bytes := by
  have fixed : left deserialize networkMagic bytes = bytes := by rw [left, failed]
  exact Function.iterate_fixed fixed count

theorem mem_replay_of_error {bytes : List UInt8} {error : TransportError}
    (failed : (front deserialize networkMagic bytes).result = .error error) {count : Nat}
    {completion : Completion} (member : completion ∈ replay deserialize networkMagic bytes count) :
    completion.result = .error error := by
  obtain ⟨index, found⟩ := List.mem_iff_getElem?.mp member
  have within := (List.getElem?_eq_some_iff.mp found).1
  rw [replay_length] at within
  rw [replay_getElem? deserialize networkMagic bytes within,
    left_iterate_of_error deserialize networkMagic failed, Option.some.injEq] at found
  rw [← found]
  exact failed

/-! ## Runs of reads -/

/-- Only a call that returns a message leaves bytes behind. -/
theorem readPayload_keeps {payload : PayloadBuffer} {stream : List UInt8}
    {outcomes : List (Filling.Outcome IoError)}
    (failing : ∀ message, (readPayload deserialize networkMagic payload stream outcomes).call ≠
      .finished (.ok message)) :
    (readPayload deserialize networkMagic payload stream outcomes).state.held ++
        (readPayload deserialize networkMagic payload stream outcomes).stream =
      payload.buffer.held ++ stream := by
  have same := payload.buffer.fill_held stream outcomes
  revert failing
  unfold readPayload
  dsimp only
  split
  next => exact fun _ => same
  next => exact fun _ => same
  next => exact fun _ => same
  next =>
    split
    next => exact fun _ => same
    next raw decoded =>
      split
      next => exact fun _ => same
      next => exact fun failing => absurd rfl (failing raw.payload)

theorem readMessage_keeps (state : V1ReceiveState) (stream : List UInt8)
    (outcomes : List (Filling.Outcome IoError))
    (failing : ∀ message, (readMessage deserialize networkMagic state stream outcomes).call ≠
      .finished (.ok message)) :
    (readMessage deserialize networkMagic state stream outcomes).state.held ++
        (readMessage deserialize networkMagic state stream outcomes).stream =
      state.held ++ stream := by
  cases state with
  | readingPayload payload => exact readPayload_keeps deserialize networkMagic failing
  | readingHeader header =>
      have same := header.fill_held stream outcomes
      have full := header.fill_full_iff stream outcomes
      revert failing
      unfold readMessage readHeader
      dsimp only
      split
      next => exact fun _ => same
      next => exact fun _ => same
      next => exact fun _ => same
      next stop =>
        intro failing
        have kept := readPayload_keeps deserialize networkMagic failing
        rw [PayloadBuffer.held_start, ← Filling.held_of_full (full.mp stop), same] at kept
        exact kept

variable {deserialize networkMagic}

/-- A completed call returns what is in front, and leaves what is left. -/
theorem Called.Follows.front {called : Called} {bytes : List UInt8}
    {result : Except TransportError NetworkMessage}
    (followed : called.Follows deserialize networkMagic bytes)
    (kept : (∀ message, called.call ≠ .finished (.ok message)) →
      called.state.held ++ called.stream = bytes)
    (ending : called.call = .finished result) :
    called.completed = [Transport.front deserialize networkMagic bytes] ∧
      called.state.held ++ called.stream = left deserialize networkMagic bytes := by
  have failed : ∀ {error}, result = .error error →
      called.state.held ++ called.stream = bytes := by
    rintro error rfl
    apply kept
    intro message same
    rw [ending] at same
    cases same
  simp only [Called.Follows, ending] at followed
  unfold left Transport.front Called.completed
  rw [ending]
  cases cut : cutFrame bytes with
  | error part =>
      simp only [cut] at followed
      obtain ⟨rfl, drained⟩ := followed
      exact ⟨by rw [drained], failed rfl⟩
  | ok pair =>
      simp only [cut] at followed
      obtain ⟨decoded, rest, cleared⟩ := followed
      dsimp only
      rw [← decoded]
      cases result with
      | error error => exact ⟨by rw [rest], failed rfl⟩
      | ok message => exact ⟨by rw [rest], by rw [cleared ⟨message, rfl⟩, rest]; rfl⟩

variable (deserialize) in
/-- Every run of reads completes as the replay of the bytes held and unread. -/
theorem reads_replay (halves : Halves) (stream : List UInt8) (attempts : List Attempt) :
    reads deserialize halves stream attempts =
      replay deserialize halves.reader.networkMagic (halves.reader.receiveState.held ++ stream)
        (reads deserialize halves stream attempts).length := by
  induction attempts generalizing halves stream with
  | nil => rfl
  | cons attempt rest inductionHypothesis =>
      have followed := readMessage_follows deserialize halves.reader.networkMagic
        halves.reader.receiveState stream attempt.outcomes
      have kept := readMessage_keeps deserialize halves.reader.networkMagic
        halves.reader.receiveState stream attempt.outcomes
      simp only [reads, Halves.read, Attempt.reader_prepare]
      generalize readMessage deserialize halves.reader.networkMagic
        halves.reader.receiveState stream attempt.outcomes = called at followed kept ⊢
      have later := inductionHypothesis ((attempt.prepare halves).keep called.state) called.stream
      simp only [Halves.reader_keep, Attempt.reader_prepare] at later
      cases ending : called.call with
      | cancelled =>
          rw [kept (by simp [ending])] at later
          simpa [Called.completed, ending] using later
      | interrupted error =>
          rw [kept (by simp [ending])] at later
          simpa [Called.completed, ending] using later
      | finished result =>
          obtain ⟨completed, remaining⟩ := followed.front kept ending
          rw [remaining] at later
          rw [completed, List.length_append, List.length_singleton, Nat.add_comm, replay,
            List.singleton_append, ← later]

end Replay

/-! ## Streams of complete frames -/

/-- A header and as many payload bytes as it declares. -/
structure Frame where
  bytes : List UInt8
  whole : HEADER_SIZE ≤ bytes.length
  sized : bytes.length = HEADER_SIZE + payloadLength bytes

/-- The bytes of some frames, one after another. -/
def stream (frames : List Frame) : List UInt8 := (frames.map Frame.bytes).flatten

section Frames

variable (deserialize : Deserialize) (networkMagic : Magic)

/-- The frame decodes and carries the reader's magic. -/
def Frame.Accepted (frame : Frame) : Prop :=
  ∃ raw, deserialize frame.bytes = .ok raw ∧ raw.magic = networkMagic

/-- The completions that report each frame once and then the end of the
input. -/
def reports : List Frame → Nat → List Completion
  | _, 0 => []
  | [], count + 1 => ⟨.error (closedWhile "header"), []⟩ :: reports [] count
  | frame :: frames, count + 1 =>
      ⟨decodeFrame deserialize networkMagic frame.bytes, stream frames⟩ :: reports frames count

/-- In every run, the completed reads report the frames one after another, each
once, and every patient call completes. -/
def ReportsEach (frames : List Frame) : Prop :=
  ∀ attempts,
    let completed := reads deserialize (.joined (.new networkMagic)) (stream frames) attempts
    completed = reports deserialize networkMagic frames completed.length ∧
      attempts.countP (Attempt.patient (stream frames)) ≤ completed.length

variable {deserialize networkMagic}

theorem Frame.accepted_iff {frame : Frame} :
    frame.Accepted deserialize networkMagic ↔
      ∃ message, decodeFrame deserialize networkMagic frame.bytes = .ok message := by
  unfold Frame.Accepted decodeFrame
  cases deserialize frame.bytes with
  | error error => simp
  | ok raw => by_cases own : raw.magic = networkMagic <;> simp [own]

@[simp] theorem front_nil : front deserialize networkMagic (stream []) =
    ⟨.error (closedWhile "header"), []⟩ := rfl

@[simp] theorem front_cons (frame : Frame) (frames : List Frame) :
    front deserialize networkMagic (stream (frame :: frames)) =
      ⟨decodeFrame deserialize networkMagic frame.bytes, stream frames⟩ := by
  have cut : cutFrame (stream (frame :: frames)) = .ok (frame.bytes, stream frames) :=
    cutFrame_frame frame.whole frame.sized (stream frames)
  rw [front, cut]

/-- While every frame is accepted the replay goes from frame to frame. -/
theorem replay_accepted {frames : List Frame}
    (accepted : ∀ frame ∈ frames, frame.Accepted deserialize networkMagic) (count : Nat) :
    replay deserialize networkMagic (stream frames) count =
      reports deserialize networkMagic frames count := by
  induction count generalizing frames with
  | zero => cases frames <;> rfl
  | succ count inductionHypothesis =>
      cases frames with
      | nil => rw [replay, reports, left, front_nil, inductionHypothesis accepted]
      | cons frame frames =>
          obtain ⟨message, decoded⟩ := Frame.accepted_iff.mp (accepted frame List.mem_cons_self)
          rw [replay, reports, left, front_cons, decoded]
          dsimp only
          rw [inductionHypothesis fun other member =>
            accepted other (List.mem_cons_of_mem _ member)]

/-- A rejected frame is still in front when every frame should be through. -/
theorem front_of_rejected {frames : List Frame}
    (rejected : ∃ frame ∈ frames, ¬ frame.Accepted deserialize networkMagic) {index : Nat}
    (through : frames.length ≤ index) :
    ∃ frame ∈ frames, ∃ error, decodeFrame deserialize networkMagic frame.bytes = .error error ∧
      (front deserialize networkMagic
        ((left deserialize networkMagic)^[index] (stream frames))).result = .error error := by
  induction frames generalizing index with
  | nil =>
      obtain ⟨frame, member, -⟩ := rejected
      cases member
  | cons frame frames inductionHypothesis =>
      cases decoded : decodeFrame deserialize networkMagic frame.bytes with
      | error error =>
          refine ⟨frame, List.mem_cons_self, error, decoded, ?_⟩
          have failed : (front deserialize networkMagic (stream (frame :: frames))).result =
              .error error := by
            rw [front_cons]
            exact decoded
          rw [left_iterate_of_error deserialize networkMagic failed]
          exact failed
      | ok message =>
          have accepted : frame.Accepted deserialize networkMagic :=
            Frame.accepted_iff.mpr ⟨message, decoded⟩
          obtain ⟨bad, member, refused⟩ := rejected
          rcases List.mem_cons.mp member with rfl | member
          · exact absurd accepted refused
          · cases index with
            | zero => simp at through
            | succ index =>
                have next : left deserialize networkMagic (stream (frame :: frames)) =
                    stream frames := by
                  rw [left, front_cons, decoded]
                rw [List.length_cons] at through
                rw [Function.iterate_succ_apply, next]
                obtain ⟨found, present, error, failing, stuck⟩ :=
                  inductionHypothesis ⟨bad, member, refused⟩ (Nat.le_of_succ_le_succ through)
                exact ⟨found, List.mem_cons_of_mem _ present, error, failing, stuck⟩

variable (deserialize networkMagic) in
/-- Once every frame is reported the end of the input is. -/
theorem reports_getElem? (frames : List Frame) {index count : Nat}
    (through : frames.length ≤ index) (within : index < count) :
    (reports deserialize networkMagic frames count)[index]? =
      some ⟨.error (closedWhile "header"), []⟩ := by
  induction count generalizing frames index with
  | zero => omega
  | succ count inductionHypothesis =>
      cases frames with
      | nil =>
          cases index with
          | zero => rfl
          | succ index => exact inductionHypothesis [] (Nat.zero_le index) (by omega)
      | cons frame frames =>
          rw [List.length_cons] at through
          cases index with
          | zero => omega
          | succ index => exact inductionHypothesis frames (by omega) (by omega)

/-- A rejection is not the end of the input. -/
theorem decodeFrame_ne_closed (frame : List UInt8) (part : String) :
    decodeFrame deserialize networkMagic frame ≠ .error (closedWhile part) := by
  unfold decodeFrame closedWhile
  split
  · exact nofun
  · split <;> exact nofun

/-- A run of patient calls. -/
def patientRun (input : List UInt8) (calls : Nat) : List Attempt :=
  List.replicate calls ⟨false, List.replicate (input.length + 1) (.ready 0)⟩

theorem countP_patientRun (input : List UInt8) (calls : Nat) :
    (patientRun input calls).countP (Attempt.patient input) = calls := by
  simp [patientRun, Attempt.patient, List.countP_replicate, Filling.Outcome.isReady]

/-- The reads of a stream of complete frames report each frame once, in every
run, exactly when no frame is rejected. -/
theorem reports_each_iff_accepted (deserialize : Deserialize) (networkMagic : Magic)
    (frames : List Frame) :
    ReportsEach deserialize networkMagic frames ↔
      ∀ frame ∈ frames, frame.Accepted deserialize networkMagic := by
  constructor
  · intro each
    by_contra some
    obtain ⟨bad, member, refused⟩ := not_forall₂.mp some
    obtain ⟨frame, -, error, decoded, stuck⟩ :=
      front_of_rejected ⟨bad, member, refused⟩ (Nat.le_refl frames.length)
    obtain ⟨reported, enough⟩ := each (patientRun (stream frames) (frames.length + 1))
    rw [countP_patientRun] at enough
    have replayed := reads_replay deserialize (.joined (.new networkMagic))
      (stream frames) (patientRun (stream frames) (frames.length + 1))
    generalize reads deserialize (.joined (.new networkMagic)) (stream frames)
      (patientRun (stream frames) (frames.length + 1)) = completed at reported enough replayed
    have here := replay_getElem? deserialize networkMagic (stream frames) enough
    have there := reports_getElem? deserialize networkMagic frames (Nat.le_refl _) enough
    have same : replay deserialize networkMagic (stream frames) completed.length =
        reports deserialize networkMagic frames completed.length := replayed.symm.trans reported
    rw [same, there, Option.some.injEq] at here
    have closed : decodeFrame deserialize networkMagic frame.bytes =
        .error (closedWhile "header") :=
      decoded.trans (stuck.symm.trans (congrArg Completion.result here.symm))
    exact decodeFrame_ne_closed frame.bytes "header" closed
  · intro accepted attempts
    have replayed := reads_replay deserialize (.joined (.new networkMagic)) (stream frames)
      attempts
    exact ⟨replayed.trans (replay_accepted accepted _),
      countP_patient_le_reads deserialize (Nat.le_refl _) _ attempts⟩

end Frames

/-! ## A frame of another network -/

def mainnet : Magic := ⟨[0xf9, 0xbe, 0xb4, 0xd9], rfl⟩
def testnet : Magic := ⟨[0x1c, 0x16, 0x3f, 0x28], rfl⟩

/-- A `verack` frame after its magic: command, length and checksum. -/
def verackTail : List UInt8 :=
  [0x76, 0x65, 0x72, 0x61, 0x63, 0x6b, 0, 0, 0, 0, 0, 0, 0, 0, 0, 0, 0x5d, 0xf6, 0xe0, 0xe2]

def verackFrame (magic : Magic) : Frame where
  bytes := magic.bytes ++ verackTail
  whole := by
    rw [List.length_append, magic.sized]
    decide
  sized := by
    obtain ⟨bytes, sized⟩ := magic
    match bytes, sized with
    | [_, _, _, _], _ => rfl

/-- The decoder on `verack` frames. -/
def decodeVerack (bytes : List UInt8) : Except EncodeError RawNetworkMessage :=
  if sized : (bytes.take 4).length = 4 then
    if bytes.drop 4 = verackTail then .ok ⟨⟨bytes.take 4, sized⟩, .verack⟩
    else .error ⟨"invalid message"⟩
  else .error ⟨"unexpected end of file"⟩

/-- A reader of one network meets a frame of another: every later read returns
the same rejection, and the frame after it is never delivered. -/
theorem foreign_frame_blocks_stream :
    ¬ ReportsEach decodeVerack mainnet [verackFrame testnet, verackFrame mainnet] ∧
      (reads decodeVerack (.joined (.new mainnet))
        (stream [verackFrame testnet, verackFrame mainnet]) (patientRun
          (stream [verackFrame testnet, verackFrame mainnet]) 3)).map Completion.result =
        [.error .magicMismatch, .error .magicMismatch, .error .magicMismatch] := by
  have stuck : (reads decodeVerack (.joined (.new mainnet))
      (stream [verackFrame testnet, verackFrame mainnet]) (patientRun
        (stream [verackFrame testnet, verackFrame mainnet]) 3)).map Completion.result =
      [.error .magicMismatch, .error .magicMismatch, .error .magicMismatch] := by
    decide
  refine ⟨fun each => ?_, stuck⟩
  have reported := (each (patientRun (stream [verackFrame testnet, verackFrame mainnet]) 3)).1
  have count := congrArg List.length stuck
  rw [List.length_map] at count
  rw [count] at reported
  rw [reported] at stuck
  revert stuck
  decide

end BitcoinPeers.Transport

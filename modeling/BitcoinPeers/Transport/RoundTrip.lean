import BitcoinPeers.Transport.Replay

/-!
Contract: the writing side of `connection/src/transport/v1.rs`, and that a
reader of the same magic returns what was written.

Owns:
- one call of `write` for any outcome of the underlying writer;
- runs of successful writes on one writer;
- the layout of an encoded message that the reader relies on.

`encode::serialize` and `encode::deserialize` of rust-bitcoin are parameters; what
is assumed of them is stated for the messages written.
-/

namespace BitcoinPeers.Transport

open BitcoinPeers.Foundation

/-- `encode::serialize` of a `RawNetworkMessage`. -/
abbrev Serialize := RawNetworkMessage → List UInt8

/-! ## Writing -/

/-- What `write_all` and `flush` give. A failed `write_all` has passed on a
beginning of its data. -/
structure WriteOutcome where
  writeAll : Except (Nat × IoError) Unit
  flush : Except IoError Unit

/-- `write`: its result and the bytes the underlying writer then has. -/
def AsyncV1TransportWriter.write (serialize : Serialize) (writer : AsyncV1TransportWriter)
    (message : NetworkMessage) (outcome : WriteOutcome) (sink : List UInt8) :
    Except IoError Unit × List UInt8 :=
  let rawMsg : RawNetworkMessage := ⟨writer.networkMagic, message⟩
  let data := serialize rawMsg
  match outcome.writeAll with
  | .error (accepted, error) => (.error error, sink ++ data.take accepted)
  | .ok () => (outcome.flush, sink ++ data)

/-- Successful writes of some messages, one after another, and the bytes they
leave. -/
inductive Written (serialize : Serialize) (writer : AsyncV1TransportWriter) :
    List NetworkMessage → List UInt8 → Prop where
  | nil : Written serialize writer [] []
  | write {messages : List NetworkMessage} {sink next : List UInt8} {message : NetworkMessage}
      (outcome : WriteOutcome) (before : Written serialize writer messages sink)
      (written : writer.write serialize message outcome sink = (.ok (), next)) :
      Written serialize writer (messages ++ [message]) next

theorem write_ok {serialize : Serialize} {writer : AsyncV1TransportWriter}
    {message : NetworkMessage} {outcome : WriteOutcome} {sink next : List UInt8}
    (written : writer.write serialize message outcome sink = (.ok (), next)) :
    next = sink ++ serialize ⟨writer.networkMagic, message⟩ := by
  unfold AsyncV1TransportWriter.write at written
  dsimp only at written
  split at written
  next => cases written
  next => exact (congrArg Prod.snd written).symm

/-- Successful writes leave the encodings in order. -/
theorem Written.bytes_eq {serialize : Serialize} {writer : AsyncV1TransportWriter}
    {messages : List NetworkMessage} {bytes : List UInt8}
    (written : Written serialize writer messages bytes) :
    bytes = (messages.map fun message => serialize ⟨writer.networkMagic, message⟩).flatten := by
  induction written with
  | nil => rfl
  | write outcome before written inductionHypothesis =>
      rw [write_ok written, inductionHypothesis, List.map_append, List.flatten_append]
      simp

/-! ## The layout of a message -/

/-- The little-endian bytes of a `u32`. -/
def le32 (value : Nat) : List UInt8 :=
  [.ofNat value, .ofNat (value / 2 ^ 8), .ofNat (value / 2 ^ 16), .ofNat (value / 2 ^ 24)]

/-- The bytes are magic, command, payload length, checksum and payload. -/
def LaidOut (magic : Magic) (bytes : List UInt8) : Prop :=
  ∃ command checksum payload : List UInt8,
    command.length = 12 ∧ checksum.length = 4 ∧ payload.length < 2 ^ 32 ∧
      bytes = magic.bytes ++ command ++ le32 payload.length ++ checksum ++ payload

theorem payloadLength_le32 {before : List UInt8} {value : Nat}
    (offset : before.length = PAYLOAD_LENGTH_OFFSET) (small : value < 2 ^ 32)
    (after : List UInt8) : payloadLength (before ++ (le32 value ++ after)) = value := by
  have behind : ∀ index, (before ++ (le32 value ++ after)).getD
      (PAYLOAD_LENGTH_OFFSET + index) 0 = (le32 value ++ after).getD index 0 := by
    intro index
    rw [List.getD_append_right _ _ _ _ (by omega), offset, Nat.add_sub_cancel_left]
  have start := behind 0
  rw [Nat.add_zero] at start
  unfold payloadLength
  rw [start, behind 1, behind 2, behind 3]
  simp only [le32, List.cons_append, List.getD_cons_zero, List.getD_cons_succ, UInt8.toNat_ofNat']
  omega

/-- Bytes of this layout are a complete frame. -/
theorem LaidOut.frame {magic : Magic} {bytes : List UInt8} (laidOut : LaidOut magic bytes) :
    HEADER_SIZE ≤ bytes.length ∧ bytes.length = HEADER_SIZE + payloadLength bytes := by
  obtain ⟨command, checksum, payload, commandSized, checksumSized, small, rfl⟩ := laidOut
  have offset : (magic.bytes ++ command).length = PAYLOAD_LENGTH_OFFSET := by
    rw [List.length_append, magic.sized, commandSized]
    rfl
  have declared := payloadLength_le32 offset small (checksum ++ payload)
  rw [← List.append_assoc, ← List.append_assoc] at declared
  have length : (magic.bytes ++ command ++ le32 payload.length ++ checksum ++ payload).length =
      HEADER_SIZE + payload.length := by
    simp only [List.length_append, magic.sized, commandSized, checksumSized]
    rfl
  rw [declared, length]
  exact ⟨Nat.le_add_right _ _, rfl⟩

/-! ## Reading what was written -/

/-- Encodings of this layout, one after another, are a stream of frames. -/
theorem exists_frames {encode : NetworkMessage → List UInt8} {magic : Magic}
    {messages : List NetworkMessage}
    (laidOut : ∀ message ∈ messages, LaidOut magic (encode message)) :
    ∃ frames : List Frame, frames.map Frame.bytes = messages.map encode := by
  induction messages with
  | nil => exact ⟨[], rfl⟩
  | cons message messages inductionHypothesis =>
      obtain ⟨frames, same⟩ := inductionHypothesis fun other member =>
        laidOut other (List.mem_cons_of_mem _ member)
      obtain ⟨whole, sized⟩ := (laidOut message List.mem_cons_self).frame
      exact ⟨⟨encode message, whole, sized⟩ :: frames, by rw [List.map_cons, List.map_cons, same]⟩

/-- The result of a read at the end of the input. -/
def endOfInput : Except TransportError NetworkMessage := .error (closedWhile "header")

/-- The results of reads that report each frame. -/
theorem reports_result (deserialize : Deserialize) (networkMagic : Magic) (frames : List Frame)
    (count : Nat) :
    (reports deserialize networkMagic frames count).map Completion.result =
      ((frames.map Frame.bytes).map (decodeFrame deserialize networkMagic) ++
        List.replicate count endOfInput).take count := by
  induction count generalizing frames with
  | zero => cases frames <;> rfl
  | succ count inductionHypothesis =>
      cases frames with
      | nil => simpa [reports, List.replicate_succ, endOfInput] using inductionHypothesis []
      | cons frame frames =>
          rw [reports, List.map_cons, inductionHypothesis]
          simp [List.replicate_succ', ← List.append_assoc, List.take_append_of_le_length]

theorem decodeFrame_own {deserialize : Deserialize} {magic : Magic} {message : NetworkMessage}
    {bytes : List UInt8} (decoded : deserialize bytes = .ok ⟨magic, message⟩) :
    decodeFrame deserialize magic bytes = .ok message := by
  rw [decodeFrame, decoded]
  exact if_neg (not_not.mpr rfl)

theorem decodeFrame_foreign {deserialize : Deserialize} {magic other : Magic}
    {message : NetworkMessage} {bytes : List UInt8}
    (decoded : deserialize bytes = .ok ⟨magic, message⟩) (foreign : other ≠ magic) :
    decodeFrame deserialize other bytes = .error .magicMismatch := by
  rw [decodeFrame, decoded]
  exact if_pos (Ne.symm foreign)

/-- A reader of another magic fails on the first of the frames, or at the end of
the input. -/
theorem front_foreign {deserialize : Deserialize} {magic other : Magic} {frames : List Frame}
    (decoded : ∀ frame ∈ frames, ∃ message, deserialize frame.bytes = .ok ⟨magic, message⟩)
    (foreign : other ≠ magic) :
    ∃ error, (front deserialize other (stream frames)).result = .error error := by
  cases frames with
  | nil => exact ⟨_, rfl⟩
  | cons frame frames =>
      obtain ⟨message, here⟩ := decoded frame List.mem_cons_self
      rw [front_cons]
      exact ⟨_, decodeFrame_foreign here foreign⟩

/-- The messages of successful writes are what the completed reads of a reader of
the same magic return, in order, and then the end of the input, in every run; a
reader of another magic never returns a message. -/
theorem written_messages_read_back (serialize : Serialize) (deserialize : Deserialize)
    (magic : Magic) (messages : List NetworkMessage)
    (laidOut : ∀ message ∈ messages, LaidOut magic (serialize ⟨magic, message⟩))
    (inverse : ∀ message ∈ messages,
      deserialize (serialize ⟨magic, message⟩) = .ok ⟨magic, message⟩)
    {bytes : List UInt8} (written : Written serialize ⟨magic⟩ messages bytes)
    (attempts : List Attempt) :
    let completed := reads deserialize (.joined (.new magic)) bytes attempts
    completed.map Completion.result =
        (messages.map Except.ok ++ List.replicate completed.length endOfInput).take
          completed.length ∧
      attempts.countP (Attempt.patient bytes) ≤ completed.length ∧
      ∀ other ≠ magic, ∀ completion ∈ reads deserialize (.joined (.new other)) bytes attempts,
        ∀ message, completion.result ≠ .ok message := by
  obtain ⟨frames, encoded⟩ := exists_frames laidOut
  have streamed : stream frames = bytes := by
    rw [stream, encoded]
    exact written.bytes_eq.symm
  subst streamed
  have decoded : ∀ frame ∈ frames, ∃ message,
      deserialize frame.bytes = .ok ⟨magic, message⟩ := by
    intro frame member
    have present := List.mem_map_of_mem (f := Frame.bytes) member
    rw [encoded] at present
    obtain ⟨message, written, same⟩ := List.mem_map.mp present
    exact ⟨message, by rw [← same]; exact inverse message written⟩
  refine ⟨?_, countP_patient_le_reads deserialize (Nat.le_refl _) _ attempts, ?_⟩
  · have accepted : ∀ frame ∈ frames, frame.Accepted deserialize magic := by
      intro frame member
      obtain ⟨message, here⟩ := decoded frame member
      exact ⟨⟨magic, message⟩, here, rfl⟩
    have results : (frames.map Frame.bytes).map (decodeFrame deserialize magic) =
        messages.map Except.ok := by
      rw [encoded, List.map_map]
      exact List.map_congr_left fun message member => decodeFrame_own (inverse message member)
    have replayed := reads_replay deserialize (.joined (.new magic)) (stream frames) attempts
    rw [show (Halves.joined (.new magic)).reader.receiveState.held ++ stream frames =
      stream frames from rfl] at replayed
    rw [← results, ← reports_result, ← replay_accepted accepted]
    exact congrArg _ replayed
  · intro other foreign completion member message returned
    rw [reads_replay deserialize (.joined (.new other))] at member
    obtain ⟨error, failed⟩ := front_foreign decoded foreign
    rw [mem_replay_of_error deserialize other failed member] at returned
    cases returned

/-- A `ping` frame with nonce 42 after its magic. -/
def pingTail : List UInt8 :=
  [0x70, 0x69, 0x6e, 0x67, 0, 0, 0, 0, 0, 0, 0, 0, 8, 0, 0, 0, 0xf2, 0x71, 0x62, 0x78,
    42, 0, 0, 0, 0, 0, 0, 0]

/-- The encoder on `verack` and on `ping` with nonce 42. -/
def sampleSerialize (raw : RawNetworkMessage) : List UInt8 :=
  raw.magic.bytes ++ (if raw.payload = .verack then verackTail else pingTail)

/-- The decoder on the same messages. -/
def sampleDeserialize (bytes : List UInt8) : Except EncodeError RawNetworkMessage :=
  if sized : (bytes.take 4).length = 4 then
    if bytes.drop 4 = verackTail then .ok ⟨⟨bytes.take 4, sized⟩, .verack⟩
    else if bytes.drop 4 = pingTail then .ok ⟨⟨bytes.take 4, sized⟩, .ping 42⟩
    else .error ⟨"invalid message"⟩
  else .error ⟨"unexpected end of file"⟩

theorem sample_laidOut : ∀ message ∈ [NetworkMessage.verack, .ping 42],
    LaidOut mainnet (sampleSerialize ⟨mainnet, message⟩) := by
  intro message member
  rcases List.mem_cons.mp member with rfl | member
  · exact ⟨verackTail.take 12, verackTail.drop 16, [], rfl, rfl, by decide, rfl⟩
  · rw [List.mem_singleton.mp member]
    exact ⟨pingTail.take 12, (pingTail.drop 16).take 4, pingTail.drop 20, rfl, rfl, by decide, rfl⟩

theorem sample_inverse : ∀ message ∈ [NetworkMessage.verack, .ping 42],
    sampleDeserialize (sampleSerialize ⟨mainnet, message⟩) = .ok ⟨mainnet, message⟩ := by
  intro message member
  rcases List.mem_cons.mp member with rfl | member
  · rfl
  · rw [List.mem_singleton.mp member]
    rfl

/-- The two messages on the wire. -/
def sampleBytes : List UInt8 :=
  sampleSerialize ⟨mainnet, .verack⟩ ++ sampleSerialize ⟨mainnet, .ping 42⟩

/-- Three calls, whose reads bring up to twenty bytes each. -/
def sampleCalls : List Attempt := List.replicate 3 ⟨false, List.replicate 4 (.ready 19)⟩

theorem written_messages_read_back_sample :
    Written sampleSerialize ⟨mainnet⟩ [.verack, .ping 42] sampleBytes ∧
      (reads sampleDeserialize (.joined (.new mainnet)) sampleBytes sampleCalls).map
        Completion.result = [.ok .verack, .ok (.ping 42), endOfInput] := by
  have first : Written sampleSerialize ⟨mainnet⟩ [.verack]
      (sampleSerialize ⟨mainnet, .verack⟩) := .write ⟨.ok (), .ok ()⟩ .nil rfl
  have written : Written sampleSerialize ⟨mainnet⟩ [.verack, .ping 42] sampleBytes :=
    .write ⟨.ok (), .ok ()⟩ first rfl
  refine ⟨written, ?_⟩
  rw [(written_messages_read_back sampleSerialize sampleDeserialize mainnet
    [.verack, .ping 42] sample_laidOut sample_inverse written sampleCalls).1]
  decide

end BitcoinPeers.Transport

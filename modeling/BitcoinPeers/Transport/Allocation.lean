import BitcoinPeers.Foundation.Machine
import BitcoinPeers.Transport.Replay

/-!
Contract: the buffers a v1 reader reserves.

Owns:
- a reader with the bytes its peer has sent as a machine, so that every state it
  can be in is the end of a run;
- the size of the payload buffer in every such state: what the header declares,
  with no bound but that of a `u32`;
- that the frames of every network get their buffer, and those of other networks
  return no message.

The reader knows no largest payload and compares the magic after decoding.

Does not own: what a frame decodes to, or what the calls return.
-/

namespace BitcoinPeers.Transport

open BitcoinPeers.Foundation

/-! ## Readers as machines -/

/-- A reader and what it has not read of the peer's bytes. -/
structure Receiving where
  reader : AsyncV1TransportReader
  unread : List UInt8

namespace Receiving

/-- The reader in another receive state. -/
def move (receiving : Receiving) (receiveState : V1ReceiveState) (unread : List UInt8) :
    Receiving :=
  ⟨{ receiving.reader with receiveState := receiveState }, unread⟩

/-- `read` with the outcomes of the underlying reads. -/
def read (deserialize : Deserialize) (receiving : Receiving)
    (outcomes : List (Filling.Outcome IoError)) : Called :=
  readMessage deserialize receiving.reader.networkMagic receiving.reader.receiveState
    receiving.unread outcomes

/-- A step is a call of `read`. A call is cancelled where its outcomes end, so
the states between two underlying reads are the ends of calls. -/
def step (deserialize : Deserialize) (receiving : Receiving)
    (outcomes : List (Filling.Outcome IoError)) : Option Receiving :=
  let called := receiving.read deserialize outcomes
  some (receiving.move called.state called.stream)

/-- A new reader, with all the bytes its peer sends. -/
def start (networkMagic : Magic) (input : List UInt8) : Receiving :=
  ⟨.new networkMagic, input⟩

end Receiving

def receiver (deserialize : Deserialize) :
    Machine Receiving (List (Filling.Outcome IoError)) :=
  ⟨Receiving.step deserialize⟩

/-! ## What is held comes from the peer -/

/-- The bytes a read leaves are the last ones it had. -/
theorem left_suffix (deserialize : Deserialize) (networkMagic : Magic) (bytes : List UInt8) :
    left deserialize networkMagic bytes <:+ bytes := by
  unfold left front
  cases cut : cutFrame bytes with
  | error part => exact List.suffix_refl bytes
  | ok pair =>
      obtain ⟨frame, rest⟩ := pair
      have joined := (cutFrame_append cut).1
      dsimp only
      split
      · exact ⟨frame, joined⟩
      · exact List.suffix_refl bytes

theorem readMessage_suffix (deserialize : Deserialize) (networkMagic : Magic)
    (state : V1ReceiveState) (stream : List UInt8) (outcomes : List (Filling.Outcome IoError)) :
    (readMessage deserialize networkMagic state stream outcomes).state.held ++
        (readMessage deserialize networkMagic state stream outcomes).stream <:+
      state.held ++ stream := by
  have followed := readMessage_follows deserialize networkMagic state stream outcomes
  have kept := readMessage_keeps deserialize networkMagic state stream outcomes
  cases ending : (readMessage deserialize networkMagic state stream outcomes).call with
  | cancelled => rw [kept (by simp [ending])]
  | interrupted error => rw [kept (by simp [ending])]
  | finished result =>
      rw [(followed.front kept ending).2]
      exact left_suffix deserialize networkMagic (state.held ++ stream)

/-- A reader that waits for a header after a call has not got all of it. -/
theorem readMessage_room (deserialize : Deserialize) (networkMagic : Magic)
    (state : V1ReceiveState) (stream : List UInt8) (outcomes : List (Filling.Outcome IoError))
    {header : Filling UInt8 HEADER_SIZE}
    (waiting : (readMessage deserialize networkMagic state stream outcomes).state =
      .readingHeader header) :
    header.filled < HEADER_SIZE := by
  have payloadCase : ∀ payload stream outcomes,
      (readPayload deserialize networkMagic payload stream outcomes).state =
        .readingHeader header → header.filled < HEADER_SIZE := by
    intro payload stream outcomes position
    unfold readPayload at position
    dsimp only at position
    split at position
    next => cases position
    next => cases position
    next => cases position
    next =>
      split at position
      next => cases position
      next =>
        split at position
        next => cases position
        next =>
          cases position
          decide
  cases state with
  | readingPayload payload => exact payloadCase payload stream outcomes waiting
  | readingHeader start =>
      have reached := start.fill_full_iff stream outcomes
      unfold readMessage readHeader at waiting
      dsimp only at waiting
      cases stop : (start.fill stream outcomes).stop with
      | full =>
          simp only [stop] at waiting
          exact payloadCase _ _ _ waiting
      | cancelled =>
          simp only [stop, V1ReceiveState.readingHeader.injEq] at waiting reached
          rw [← waiting]
          simpa using reached
      | failed error =>
          simp only [stop, V1ReceiveState.readingHeader.injEq] at waiting reached
          rw [← waiting]
          simpa using reached
      | closed =>
          simp only [stop, V1ReceiveState.readingHeader.injEq] at waiting reached
          rw [← waiting]
          simpa using reached

/-- The reader keeps its magic, what it holds and has not read are the last bytes
of the input, and it leaves a header when it has all of it. -/
structure Faithful (networkMagic : Magic) (input : List UInt8) (receiving : Receiving) : Prop where
  magic : receiving.reader.networkMagic = networkMagic
  suffix : receiving.reader.receiveState.held ++ receiving.unread <:+ input
  room : ∀ header, receiving.reader.receiveState = .readingHeader header →
    header.filled < HEADER_SIZE

theorem faithful_step {deserialize : Deserialize} {networkMagic : Magic} {input : List UInt8}
    {receiving next : Receiving} {outcomes : List (Filling.Outcome IoError)}
    (stepped : (receiver deserialize).step receiving outcomes = some next)
    (faithful : Faithful networkMagic input receiving) : Faithful networkMagic input next := by
  change some _ = some next at stepped
  cases stepped
  refine ⟨faithful.magic, ?_, fun header waiting => ?_⟩
  · exact (readMessage_suffix deserialize _ _ _ outcomes).trans faithful.suffix
  · exact readMessage_room deserialize _ _ _ outcomes waiting

theorem faithful_run {deserialize : Deserialize}
    {Allowed : Receiving → List (Filling.Outcome IoError) → Prop}
    {networkMagic : Magic} {input : List UInt8}
    {calls : List (List (Filling.Outcome IoError))} {receiving : Receiving}
    (run : (receiver deserialize).Run Allowed (.start networkMagic input) calls receiving) :
    Faithful networkMagic input receiving := by
  refine run.invariant (Faithful networkMagic input) (fun _ stepped => faithful_step stepped)
    ⟨rfl, List.suffix_refl input, fun header waiting => ?_⟩
  cases waiting
  decide

/-! ## The size of a payload buffer -/

theorem payloadLength_lt (header : List UInt8) : payloadLength header < 2 ^ 32 := by
  have first := (header.getD PAYLOAD_LENGTH_OFFSET 0).toNat_lt
  have second := (header.getD (PAYLOAD_LENGTH_OFFSET + 1) 0).toNat_lt
  have third := (header.getD (PAYLOAD_LENGTH_OFFSET + 2) 0).toNat_lt
  have fourth := (header.getD (PAYLOAD_LENGTH_OFFSET + 3) 0).toNat_lt
  unfold payloadLength
  omega

namespace PayloadBuffer

/-- The header a payload buffer starts with. -/
def header (payload : PayloadBuffer) : List UInt8 := payload.buffer.elements.take HEADER_SIZE

/-- The header is whole from the start. -/
theorem take_held (payload : PayloadBuffer) :
    payload.buffer.held.take HEADER_SIZE = payload.header := by
  rw [Filling.held, List.take_take, Nat.min_eq_left payload.started]
  rfl

theorem payloadLength_header (payload : PayloadBuffer) :
    payloadLength payload.header = payload.payloadLen := by
  rw [← take_held, take_header_payloadLength payload.started_held]
  exact payload.declared

theorem length_header (payload : PayloadBuffer) : payload.header.length = HEADER_SIZE := by
  rw [header, List.length_take, payload.buffer.sized]
  omega

/-- The buffer has the size its header declares. -/
theorem length_elements (payload : PayloadBuffer) :
    payload.buffer.elements.length = HEADER_SIZE + payloadLength payload.header := by
  rw [payload.buffer.sized, payloadLength_header]

end PayloadBuffer

/-! ## Frames of other networks -/

/-- Decoding reads the magic from the first four bytes. -/
def ReadsMagic (deserialize : Deserialize) : Prop :=
  ∀ bytes raw, deserialize bytes = .ok raw → raw.magic.bytes = bytes.take 4

/-- A frame that decodes to a message starts with the reader's magic. -/
theorem take_of_decodeFrame {deserialize : Deserialize} {networkMagic : Magic}
    {frame : List UInt8} {message : NetworkMessage} (reads : ReadsMagic deserialize)
    (decoded : decodeFrame deserialize networkMagic frame = .ok message) :
    frame.take 4 = networkMagic.bytes := by
  unfold decodeFrame at decoded
  split at decoded
  next => cases decoded
  next raw taken =>
    split at decoded
    next => cases decoded
    next own =>
      rw [not_not] at own
      rw [← reads frame raw taken, own]

/-- No read returns a message when the frame it is at starts with another
magic, however much of that frame was read before. -/
theorem foreign_not_returned {deserialize : Deserialize} {networkMagic : Magic}
    {state : V1ReceiveState} {stream : List UInt8} (reads : ReadsMagic deserialize)
    (foreign : (state.held ++ stream).take 4 ≠ networkMagic.bytes)
    (outcomes : List (Filling.Outcome IoError)) (message : NetworkMessage) :
    (readMessage deserialize networkMagic state stream outcomes).call ≠
      .finished (.ok message) := by
  intro ending
  have followed := readMessage_follows deserialize networkMagic state stream outcomes
  simp only [Called.Follows, ending] at followed
  cases cut : cutFrame (state.held ++ stream) with
  | error part =>
      simp only [cut] at followed
      cases followed.1
  | ok pair =>
      obtain ⟨frame, rest⟩ := pair
      simp only [cut] at followed
      obtain ⟨joined, whole⟩ := cutFrame_append cut
      have four : 4 ≤ frame.length := Nat.le_trans (by decide) whole
      apply foreign
      rw [← joined, List.take_append_of_le_length four]
      exact take_of_decodeFrame reads followed.1.symm

/-! ## Every header gets its buffer -/

/-- A payload buffer with no underlying read to come stays as it is. -/
theorem PayloadBuffer.extend_nil (payload : PayloadBuffer) (stream : List UInt8) :
    payload.extend stream [] = payload := by
  have same : (payload.buffer.fill stream ([] : List (Filling.Outcome IoError))).buffer =
      payload.buffer := (payload.buffer.fill_nil stream).1
  unfold PayloadBuffer.extend
  cases payload
  simp only [mk.injEq, heq_eq_eq, true_and] at same ⊢
  exact same

/-- A call that completes a header goes on with a payload buffer that starts with
this header, whatever it says and however it arrived. -/
theorem readMessage_completes (deserialize : Deserialize) (networkMagic : Magic)
    {header : Filling UInt8 HEADER_SIZE} {stream : List UInt8}
    (whole : HEADER_SIZE ≤ (header.held ++ stream).length) :
    ∃ payload rest, payload.header ++ rest = header.held ++ stream ∧
      payload.buffer.filled = HEADER_SIZE ∧
      ∀ outcomes, (header.fill stream outcomes).stop = .full →
        readMessage deserialize networkMagic (.readingHeader header) stream outcomes =
          readMessage deserialize networkMagic (.readingPayload payload) rest
            (header.fill stream outcomes).outcomes := by
  let complete : Filling UInt8 HEADER_SIZE :=
    { elements := (header.held ++ stream).take HEADER_SIZE
      filled := HEADER_SIZE
      sized := List.length_take_of_le whole
      bound := Nat.le_refl _ }
  have held : complete.held = (header.held ++ stream).take HEADER_SIZE :=
    Filling.held_of_full (Nat.lt_irrefl _)
  refine ⟨.start complete, (header.held ++ stream).drop HEADER_SIZE, ?_, rfl, ?_⟩
  · rw [← PayloadBuffer.take_held, PayloadBuffer.held_start,
      List.take_of_length_le (Nat.le_of_eq complete.sized)]
    exact List.take_append_drop _ _
  · intro outcomes full
    have reached := (header.fill_full_iff stream outcomes).mp full
    obtain ⟨first, last⟩ := Filling.held_fill_of_full full
    have same : (header.fill stream outcomes).buffer = complete :=
      Filling.eq_of_full reached (Nat.lt_irrefl _) (by rw [first, held])
    simp only [readMessage, readHeader, full, same, last]

/-- A call that ends with a complete header leaves its payload buffer, unless the
frame is empty and of the reader's network. -/
theorem readMessage_leaves {deserialize : Deserialize} {networkMagic : Magic}
    {payload : PayloadBuffer} (reads : ReadsMagic deserialize)
    (started : payload.buffer.filled = HEADER_SIZE)
    (kept : 0 < payloadLength payload.header ∨ payload.header.take 4 ≠ networkMagic.bytes)
    (stream : List UInt8) :
    (readMessage deserialize networkMagic (.readingPayload payload) stream []).state =
        .readingPayload payload ∧
      (readMessage deserialize networkMagic (.readingPayload payload) stream []).stream =
        stream := by
  have same := payload.extend_nil stream
  obtain ⟨buffered, unmoved⟩ :
      (payload.buffer.fill stream ([] : List (Filling.Outcome IoError))).buffer = payload.buffer ∧
        (payload.buffer.fill stream ([] : List (Filling.Outcome IoError))).stream = stream :=
    payload.buffer.fill_nil stream
  by_cases more : payload.buffer.filled < HEADER_SIZE + payload.payloadLen
  · have waits : (payload.buffer.fill stream ([] : List (Filling.Outcome IoError))).stop =
        .cancelled := by
      rw [Filling.fill, if_pos more]
    simp only [readMessage, readPayload, waits, same, unmoved, and_self]
  · have full : (payload.buffer.fill stream ([] : List (Filling.Outcome IoError))).stop =
        .full := by
      rw [Filling.fill, if_neg more]
    have foreign : payload.header.take 4 ≠ networkMagic.bytes := by
      refine kept.resolve_left (fun positive => more ?_)
      rw [payload.payloadLength_header] at positive
      omega
    simp only [readMessage, readPayload, full, buffered, same, unmoved]
    cases decoded : deserialize payload.buffer.elements with
    | error error => exact ⟨rfl, rfl⟩
    | ok raw =>
        have other : raw.magic ≠ networkMagic := by
          intro own
          apply foreign
          rw [← own, reads _ raw decoded, PayloadBuffer.header, List.take_take,
            Nat.min_eq_left (by decide)]
        simp only [other, ne_eq, not_false_eq_true, if_true, and_self]

/-- A header after its magic: the `verack` command, a length and no checksum. -/
def declaring (magic : Magic) (length : List UInt8) : List UInt8 :=
  magic.bytes ++ [0x76, 0x65, 0x72, 0x61, 0x63, 0x6b, 0, 0, 0, 0, 0, 0] ++ length ++ [0, 0, 0, 0]

theorem readsMagic_decodeVerack : ReadsMagic decodeVerack := by
  intro bytes raw decoded
  unfold decodeVerack at decoded
  split at decoded
  next =>
    split at decoded
    next =>
      cases decoded
      rfl
    next => cases decoded
  next => cases decoded

/-- A call of `read` on a new reader with a header in front of it leaves the
payload buffer of this header. -/
theorem run_header {deserialize : Deserialize} (networkMagic : Magic)
    {header : List UInt8} (reads : ReadsMagic deserialize) (sized : header.length = HEADER_SIZE)
    (kept : 0 < payloadLength header ∨ header.take 4 ≠ networkMagic.bytes) :
    ∃ receiving payload, (receiver deserialize).Run Machine.Always (.start networkMagic header)
        [[.ready HEADER_SIZE]] receiving ∧
      receiving.reader.receiveState = .readingPayload payload ∧ payload.header = header ∧
      receiving.unread = [] := by
  have whole : HEADER_SIZE ≤
      ((Filling.empty 0 HEADER_SIZE : Filling UInt8 HEADER_SIZE).held ++ header).length := by
    rw [Filling.held_empty, List.nil_append]
    exact Nat.le_of_eq sized.symm
  obtain ⟨payload, unread, front, started, completes⟩ :=
    readMessage_completes deserialize networkMagic whole
  rw [Filling.held_empty, List.nil_append] at front
  obtain ⟨same, nothing⟩ := List.append_inj (front.trans (List.append_nil header).symm)
    (by rw [payload.length_header, sized])
  rw [List.length_append, Filling.held_length] at whole
  obtain ⟨full, used⟩ := Filling.fill_whole IoError HEADER_SIZE (by decide) (by decide) whole
  have called := completes [.ready HEADER_SIZE] full
  rw [used] at called
  rw [← same] at kept
  obtain ⟨left, unmoved⟩ := readMessage_leaves reads started kept unread
  rw [← called] at left unmoved
  exact ⟨_, payload, .cons trivial rfl (.nil _), left, same, unmoved.trans nothing⟩

end BitcoinPeers.Transport

import BitcoinPeers.Transport.RoundTrip

/-!
Contract: a `read` of the v1 transport that is suspended and resumed as bytes
arrive.

Owns:
- the receive states a suspended call can be in: an incomplete header or payload;
- what one underlying read does to such a call, when something has arrived: it
  waits again, or it returns what the first frame decodes to;
- that a call is interrupted by the failure of an underlying read.

Does not own: the end of the stream.
-/

namespace BitcoinPeers.Transport

open BitcoinPeers.Foundation

/-- The reader has an incomplete header or payload. -/
def V1ReceiveState.Waits : V1ReceiveState → Prop
  | .readingHeader header => header.filled < HEADER_SIZE
  | .readingPayload payload => payload.buffer.filled < HEADER_SIZE + payload.payloadLen

theorem waits_fresh : V1ReceiveState.fresh.Waits := by
  show (0 : Nat) < HEADER_SIZE
  decide

/-- A waiting reader holds no complete frame. -/
theorem V1ReceiveState.Waits.incomplete {state : V1ReceiveState} (waits : state.Waits) :
    ∃ part, cutFrame state.held = .error part := by
  cases state with
  | readingHeader header =>
      refine ⟨"header", cutFrame_header ?_⟩
      rw [V1ReceiveState.held, Filling.held_length]
      exact waits
  | readingPayload payload => exact ⟨"payload", payload.cutFrame_short waits⟩

section Arrival

variable (deserialize : Deserialize) (networkMagic : Magic)

/-- What the arrival of some bytes does to a suspended `read`: it waits for more,
or it returns what the first frame decodes to and leaves the bytes after it. -/
inductive Called.Advances (called : Called) (bytes : List UInt8) : Prop where
  | waits (suspended : called.call = .cancelled)
      (kept : called.state.held ++ called.stream = bytes) (waiting : called.state.Waits)
  | returns {frame : List UInt8} (cut : cutFrame bytes = .ok (frame, called.stream))
      (result : called.call = .finished (decodeFrame deserialize networkMagic frame))
      (cleared : ∀ message, decodeFrame deserialize networkMagic frame = .ok message →
        called.state = .fresh)

theorem readPayload_stream (payload : PayloadBuffer) (stream : List UInt8)
    (outcomes : List (Filling.Outcome IoError)) :
    (readPayload deserialize networkMagic payload stream outcomes).stream =
      (payload.buffer.fill stream outcomes).stream := by
  unfold readPayload
  dsimp only
  split
  next => rfl
  next => rfl
  next => rfl
  next =>
    split
    next => rfl
    next => split <;> rfl

theorem readPayload_advances {payload : PayloadBuffer} {stream : List UInt8}
    {outcomes : List (Filling.Outcome IoError)}
    (stop : (payload.buffer.fill stream outcomes).stop = .cancelled ∨
      (payload.buffer.fill stream outcomes).stop = .full) :
    (readPayload deserialize networkMagic payload stream outcomes).Advances deserialize
      networkMagic (payload.buffer.held ++ stream) := by
  have same := payload.buffer.fill_held stream outcomes
  have full := payload.buffer.fill_full_iff stream outcomes
  rw [← same]
  rcases stop with cancelled | ended
  · refine .waits ?_ ?_ ?_
    · simp only [readPayload, cancelled]
    · simp only [readPayload, cancelled]
      rfl
    · simp only [readPayload, cancelled]
      show (payload.buffer.fill stream outcomes).buffer.filled < _
      by_contra reached
      rw [full.mpr reached] at cancelled
      cases cancelled
  · have cut := (payload.extend stream outcomes).cutFrame_full (full.mp ended)
      (payload.buffer.fill stream outcomes).stream
    change cutFrame ((payload.buffer.fill stream outcomes).buffer.held ++ _) =
      .ok ((payload.buffer.fill stream outcomes).buffer.elements, _) at cut
    refine .returns (by rw [readPayload_stream]; exact cut) ?_ fun message decoded => ?_
    · simp only [readPayload, ended, decodeFrame]
      cases deserialize (payload.buffer.fill stream outcomes).buffer.elements with
      | error error => rfl
      | ok raw =>
          dsimp only
          split <;> rfl
    · simp only [readPayload, ended]
      unfold decodeFrame at decoded
      cases here : deserialize (payload.buffer.fill stream outcomes).buffer.elements with
      | error error =>
          simp only [here] at decoded
          cases decoded
      | ok raw =>
          simp only [here] at decoded
          by_cases own : raw.magic = networkMagic
          · simp only [own, ne_eq, not_true_eq_false, if_false]
          · rw [if_pos own] at decoded
            cases decoded

/-- One underlying read of a suspended call, from a stream that has something. -/
theorem readMessage_advances {state : V1ReceiveState} (waits : state.Waits)
    {stream : List UInt8} (arrived : stream ≠ []) (extra : Nat) :
    (readMessage deserialize networkMagic state stream [.ready extra]).Advances deserialize
        networkMagic (state.held ++ stream) ∧
      (readMessage deserialize networkMagic state stream [.ready extra]).stream.length <
        stream.length := by
  cases state with
  | readingPayload payload =>
      obtain ⟨filled, read⟩ : ∃ filled : Filling.Filled UInt8 IoError _,
        payload.buffer.fill stream [.ready extra] = filled := ⟨_, rfl⟩
      obtain ⟨stop, -, shorter⟩ := Filling.fill_one waits arrived extra read
      rw [← read] at stop shorter
      refine ⟨readPayload_advances deserialize networkMagic stop, ?_⟩
      show (readPayload deserialize networkMagic payload stream [.ready extra]).stream.length < _
      rw [readPayload_stream]
      exact shorter
  | readingHeader header =>
      obtain ⟨filled, read⟩ : ∃ filled : Filling.Filled UInt8 IoError HEADER_SIZE,
        header.fill stream [.ready extra] = filled := ⟨_, rfl⟩
      obtain ⟨stop, used, shorter⟩ := Filling.fill_one waits arrived extra read
      have full := header.fill_full_iff stream ([.ready extra] : List (Filling.Outcome IoError))
      have same := header.fill_held stream ([.ready extra] : List (Filling.Outcome IoError))
      rw [read] at full same
      rcases stop with cancelled | ended
      · have called : readMessage deserialize networkMagic (.readingHeader header) stream
            [.ready extra] = ⟨.cancelled, .readingHeader filled.buffer, filled.stream⟩ := by
          simp only [readMessage, readHeader, read, cancelled]
        rw [called]
        refine ⟨.waits rfl same ?_, shorter⟩
        by_contra reached
        rw [full.mpr reached] at cancelled
        cases cancelled
      · have called : readMessage deserialize networkMagic (.readingHeader header) stream
            [.ready extra] =
              readPayload deserialize networkMagic (.start filled.buffer) filled.stream [] := by
          simp only [readMessage, readHeader, read, ended, used]
        have bytes : (PayloadBuffer.start filled.buffer).buffer.held ++ filled.stream =
            header.held ++ stream := by
          rw [PayloadBuffer.held_start, ← Filling.held_of_full (full.mp ended)]
          exact same
        rw [called, V1ReceiveState.held, ← bytes]
        constructor
        · apply readPayload_advances
          rw [Filling.fill]
          split
          · exact .inl rfl
          · exact .inr rfl
        · have kept := readPayload_stream_length_le deserialize networkMagic
            (.start filled.buffer) filled.stream []
          omega

/-! ## Interrupted reads -/

variable {deserialize networkMagic}

theorem mem_of_readPayload_interrupted {payload : PayloadBuffer} {stream : List UInt8}
    {outcomes : List (Filling.Outcome IoError)} {error : IoError}
    (interrupted : (readPayload deserialize networkMagic payload stream outcomes).call =
      .interrupted error) : .failed error ∈ outcomes := by
  unfold readPayload at interrupted
  dsimp only at interrupted
  cases stop : (payload.buffer.fill stream outcomes).stop with
  | failed failure =>
      simp only [stop] at interrupted
      cases interrupted
      exact Filling.mem_of_fill_failed stop
  | cancelled =>
      simp only [stop] at interrupted
      cases interrupted
  | closed =>
      simp only [stop] at interrupted
      cases interrupted
  | full =>
      simp only [stop] at interrupted
      cases decoded : deserialize (payload.buffer.fill stream outcomes).buffer.elements with
      | error refused =>
          simp only [decoded] at interrupted
          cases interrupted
      | ok raw =>
          simp only [decoded] at interrupted
          by_cases own : raw.magic = networkMagic
          · rw [if_neg (not_not_intro own)] at interrupted
            cases interrupted
          · rw [if_pos own] at interrupted
            cases interrupted

/-- A call is interrupted by the failure of an underlying read. -/
theorem mem_of_readMessage_interrupted {state : V1ReceiveState} {stream : List UInt8}
    {outcomes : List (Filling.Outcome IoError)} {error : IoError}
    (interrupted : (readMessage deserialize networkMagic state stream outcomes).call =
      .interrupted error) : .failed error ∈ outcomes := by
  cases state with
  | readingPayload payload => exact mem_of_readPayload_interrupted interrupted
  | readingHeader header =>
      unfold readMessage readHeader at interrupted
      dsimp only at interrupted
      cases stop : (header.fill stream outcomes).stop with
      | failed failure =>
          simp only [stop] at interrupted
          cases interrupted
          exact Filling.mem_of_fill_failed stop
      | cancelled =>
          simp only [stop] at interrupted
          cases interrupted
      | closed =>
          simp only [stop] at interrupted
          cases interrupted
      | full =>
          simp only [stop] at interrupted
          exact (header.fill_outcomes_suffix stream outcomes).subset
            (mem_of_readPayload_interrupted interrupted)

end Arrival

end BitcoinPeers.Transport

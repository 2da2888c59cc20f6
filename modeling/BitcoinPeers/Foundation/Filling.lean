import Mathlib.Data.List.Basic

/-!
Contract: filling a buffer of fixed size from a stream that arrives in pieces.

Owns:
- `Filling`, a buffer with the number of elements filled so far;
- the fill loop over the outcomes of the underlying reads: a piece, a failure,
  or no outcome at all, when the loop is cancelled while it waits;
- that no outcome loses, repeats or reorders an element.

Does not own: what the elements are, or what is done with a full buffer.
-/

namespace BitcoinPeers.Foundation

universe u v

variable {Element : Type u} {Failure : Type v} {size : Nat}

/-- A buffer of a fixed size, filled from the front. -/
structure Filling (Element : Type u) (size : Nat) where
  elements : List Element
  filled : Nat
  sized : elements.length = size
  bound : filled ≤ size

namespace Filling

/-- The elements filled so far. -/
def held (buffer : Filling Element size) : List Element := buffer.elements.take buffer.filled

theorem held_length (buffer : Filling Element size) : buffer.held.length = buffer.filled := by
  rw [held, List.length_take, buffer.sized]
  exact Nat.min_eq_left buffer.bound

/-- A full buffer holds all its elements. -/
theorem held_of_full {buffer : Filling Element size} (full : ¬ buffer.filled < size) :
    buffer.held = buffer.elements := by
  have everything : buffer.elements.length ≤ buffer.filled := by
    rw [buffer.sized]
    omega
  exact List.take_of_length_le everything

/-- A buffer with nothing in it, blank elsewhere. -/
def empty (blank : Element) (size : Nat) : Filling Element size where
  elements := List.replicate size blank
  filled := 0
  sized := List.length_replicate
  bound := Nat.zero_le size

@[simp] theorem held_empty (blank : Element) : (empty blank size).held = [] := rfl

/-- Write a piece at the position reached. -/
def accept (buffer : Filling Element size) (piece : List Element)
    (fits : buffer.filled + piece.length ≤ size) : Filling Element size where
  elements := buffer.elements.take buffer.filled ++ piece ++
    buffer.elements.drop (buffer.filled + piece.length)
  filled := buffer.filled + piece.length
  sized := by
    have length := buffer.sized
    rw [List.length_append, List.length_append, List.length_take, List.length_drop]
    omega
  bound := fits

theorem held_accept (buffer : Filling Element size) (piece : List Element)
    (fits : buffer.filled + piece.length ≤ size) :
    (buffer.accept piece fits).held = buffer.held ++ piece := by
  have length : (buffer.held ++ piece).length = buffer.filled + piece.length := by
    rw [List.length_append, buffer.held_length]
  change ((buffer.held ++ piece) ++ buffer.elements.drop (buffer.filled + piece.length)).take
    (buffer.filled + piece.length) = _
  rw [← length, List.take_left]

/-! ## The fill loop -/

/-- The outcome of one underlying read. `ready` offers up to `extra + 1`
elements; the read returns as many of them as the stream has and the rest of the
buffer takes, so none only at the end of the stream. -/
inductive Outcome (Failure : Type v) where
  | ready (extra : Nat)
  | failed (failure : Failure)
deriving DecidableEq, Repr

def Outcome.isReady : Outcome Failure → Bool
  | .ready _ => true
  | .failed _ => false

/-- Why the loop stopped. -/
inductive Stop (Failure : Type v) where
  | full
  | cancelled
  | failed (failure : Failure)
  | closed
deriving DecidableEq, Repr

/-- The loop's end: why it stopped, the buffer, the unread stream and the
outcomes it did not use. -/
structure Filled (Element : Type u) (Failure : Type v) (size : Nat) where
  stop : Stop Failure
  buffer : Filling Element size
  stream : List Element
  outcomes : List (Outcome Failure)

/-- The elements one read returns. -/
def piece (buffer : Filling Element size) (stream : List Element) (extra : Nat) : List Element :=
  stream.take (min (extra + 1) (size - buffer.filled))

theorem piece_fits {buffer : Filling Element size} (stream : List Element) (extra : Nat)
    (room : buffer.filled < size) :
    buffer.filled + (buffer.piece stream extra).length ≤ size := by
  have length : (buffer.piece stream extra).length ≤ size - buffer.filled := by
    rw [piece, List.length_take]
    omega
  omega

/-- Read until the buffer is full. -/
def fill (buffer : Filling Element size) (stream : List Element) :
    List (Outcome Failure) → Filled Element Failure size
  | [] =>
      if buffer.filled < size then ⟨.cancelled, buffer, stream, []⟩
      else ⟨.full, buffer, stream, []⟩
  | outcome :: rest =>
      if room : buffer.filled < size then
        match outcome with
        | .failed failure => ⟨.failed failure, buffer, stream, rest⟩
        | .ready extra =>
            if buffer.piece stream extra = [] then ⟨.closed, buffer, stream, rest⟩
            else
              (buffer.accept (buffer.piece stream extra) (piece_fits stream extra room)).fill
                (stream.drop (buffer.piece stream extra).length) rest
      else ⟨.full, buffer, stream, outcome :: rest⟩

theorem piece_append_drop (buffer : Filling Element size) (stream : List Element) (extra : Nat) :
    buffer.piece stream extra ++ stream.drop (buffer.piece stream extra).length = stream := by
  unfold piece
  generalize min (extra + 1) (size - buffer.filled) = count
  rw [List.length_take]
  by_cases short : count ≤ stream.length
  · rw [Nat.min_eq_left short, List.take_append_drop]
  · rw [Nat.min_eq_right (by omega), List.drop_length, List.append_nil]
    exact List.take_of_length_le (by omega)

/-- A read that returns something takes it from a stream that has it. -/
theorem piece_length_le (buffer : Filling Element size) (stream : List Element) (extra : Nat) :
    (buffer.piece stream extra).length ≤ stream.length := by
  rw [piece, List.length_take]
  exact Nat.min_le_right _ _

/-- What is held and what is unread stay the same sequence. -/
theorem fill_held (buffer : Filling Element size) (stream : List Element)
    (outcomes : List (Outcome Failure)) :
    (buffer.fill stream outcomes).buffer.held ++ (buffer.fill stream outcomes).stream =
      buffer.held ++ stream := by
  induction outcomes generalizing buffer stream with
  | nil =>
      rw [fill]
      split <;> rfl
  | cons outcome rest inductionHypothesis =>
      rw [fill]
      split
      next room =>
        cases outcome with
        | failed failure => rfl
        | ready extra =>
            dsimp only
            split
            next => rfl
            next =>
              rw [inductionHypothesis, held_accept, List.append_assoc, piece_append_drop]
      next => rfl

/-- The loop only adds to what is held. -/
theorem fill_extends (buffer : Filling Element size) (stream : List Element)
    (outcomes : List (Outcome Failure)) :
    ∃ more, (buffer.fill stream outcomes).buffer.held = buffer.held ++ more := by
  induction outcomes generalizing buffer stream with
  | nil =>
      rw [fill]
      split <;> exact ⟨[], (List.append_nil _).symm⟩
  | cons outcome rest inductionHypothesis =>
      rw [fill]
      split
      next room =>
        cases outcome with
        | failed failure => exact ⟨[], (List.append_nil _).symm⟩
        | ready extra =>
            dsimp only
            split
            next => exact ⟨[], (List.append_nil _).symm⟩
            next =>
              obtain ⟨more, longer⟩ := inductionHypothesis
                (buffer.accept (buffer.piece stream extra) (piece_fits stream extra room))
                (stream.drop (buffer.piece stream extra).length)
              exact ⟨buffer.piece stream extra ++ more, by
                rw [longer, held_accept, List.append_assoc]⟩
      next => exact ⟨[], (List.append_nil _).symm⟩

/-- The loop never puts elements back. -/
theorem fill_stream_length_le (buffer : Filling Element size) (stream : List Element)
    (outcomes : List (Outcome Failure)) :
    (buffer.fill stream outcomes).stream.length ≤ stream.length := by
  obtain ⟨more, longer⟩ := buffer.fill_extends stream outcomes
  have lengths := congrArg List.length (buffer.fill_held stream outcomes)
  rw [longer, List.length_append, List.length_append, List.length_append] at lengths
  omega

/-- The loop stops as full exactly with a full buffer. -/
theorem fill_full_iff (buffer : Filling Element size) (stream : List Element)
    (outcomes : List (Outcome Failure)) :
    (buffer.fill stream outcomes).stop = .full ↔
      ¬ (buffer.fill stream outcomes).buffer.filled < size := by
  induction outcomes generalizing buffer stream with
  | nil =>
      rw [fill]
      split
      next room => simp [room]
      next full => simp [full]
  | cons outcome rest inductionHypothesis =>
      rw [fill]
      split
      next room =>
        cases outcome with
        | failed failure => simp [room]
        | ready extra =>
            dsimp only
            split
            next => simp [room]
            next => exact inductionHypothesis _ _
      next full => simp [full]

/-- The loop finds the stream closed only when nothing of it is left. -/
theorem fill_closed {buffer : Filling Element size} {stream : List Element}
    {outcomes : List (Outcome Failure)}
    (closed : (buffer.fill stream outcomes).stop = .closed) :
    (buffer.fill stream outcomes).stream = [] := by
  induction outcomes generalizing buffer stream with
  | nil =>
      rw [fill] at closed
      split at closed <;> cases closed
  | cons outcome rest inductionHypothesis =>
      rw [fill] at closed ⊢
      split at closed
      next room =>
        cases outcome with
        | failed failure => cases closed
        | ready extra =>
            dsimp only at closed ⊢
            split at closed
            next nothing =>
              rw [dif_pos room, if_pos nothing]
              have bound : 0 < min (extra + 1) (size - buffer.filled) := by omega
              rcases List.take_eq_nil_iff.mp nothing with zero | empty
              · omega
              · exact empty
            next something =>
              rw [dif_pos room, if_neg something]
              exact inductionHypothesis closed
      next => cases closed

/-- Reads that all succeed and are more than the stream has elements bring the
loop to an end of its own, with enough of them left. -/
theorem fill_ready (buffer : Filling Element size) {stream : List Element}
    {outcomes : List (Outcome Failure)}
    (ready : ∀ outcome ∈ outcomes, outcome.isReady = true)
    (enough : stream.length < outcomes.length) :
    (buffer.fill stream outcomes).stop = .closed ∨
      (buffer.fill stream outcomes).stop = .full ∧
        (∀ outcome ∈ (buffer.fill stream outcomes).outcomes, outcome.isReady = true) ∧
        (buffer.fill stream outcomes).stream.length <
          (buffer.fill stream outcomes).outcomes.length := by
  induction outcomes generalizing buffer stream with
  | nil => simp at enough
  | cons outcome rest inductionHypothesis =>
      rw [fill]
      split
      next room =>
        cases outcome with
        | failed failure => cases ready _ List.mem_cons_self
        | ready extra =>
            dsimp only
            split
            next => exact .inl rfl
            next something =>
              apply inductionHypothesis
              · exact fun other member => ready other (List.mem_cons_of_mem _ member)
              · have positive := List.length_pos_of_ne_nil something
                have taken := buffer.piece_length_le stream extra
                rw [List.length_cons] at enough
                rw [List.length_drop]
                omega
      next => exact .inr ⟨rfl, ready, enough⟩

/-- The loop fails with a failure of an underlying read. -/
theorem mem_of_fill_failed {buffer : Filling Element size} {stream : List Element}
    {outcomes : List (Outcome Failure)} {failure : Failure}
    (stopped : (buffer.fill stream outcomes).stop = .failed failure) :
    .failed failure ∈ outcomes := by
  induction outcomes generalizing buffer stream with
  | nil =>
      rw [fill] at stopped
      split at stopped <;> cases stopped
  | cons outcome rest inductionHypothesis =>
      rw [fill] at stopped
      split at stopped
      next room =>
        cases outcome with
        | failed other =>
            cases stopped
            exact List.mem_cons_self
        | ready extra =>
            dsimp only at stopped
            split at stopped
            next => cases stopped
            next => exact List.mem_cons_of_mem _ (inductionHypothesis stopped)
      next => cases stopped

/-- The outcomes the loop leaves are the last ones. -/
theorem fill_outcomes_suffix (buffer : Filling Element size) (stream : List Element)
    (outcomes : List (Outcome Failure)) :
    (buffer.fill stream outcomes).outcomes <:+ outcomes := by
  induction outcomes generalizing buffer stream with
  | nil =>
      rw [fill]
      split <;> exact List.suffix_rfl
  | cons outcome rest inductionHypothesis =>
      rw [fill]
      split
      next room =>
        cases outcome with
        | failed failure => exact List.suffix_cons _ _
        | ready extra =>
            dsimp only
            split
            next => exact List.suffix_cons _ _
            next => exact (inductionHypothesis _ _).trans (List.suffix_cons _ _)
      next => exact List.suffix_rfl

/-- Full buffers with the same elements are the same. -/
theorem eq_of_full {buffer other : Filling Element size} (full : ¬ buffer.filled < size)
    (otherFull : ¬ other.filled < size) (same : buffer.held = other.held) : buffer = other := by
  have bound := buffer.bound
  have otherBound := other.bound
  rw [held_of_full full, held_of_full otherFull] at same
  cases buffer
  cases other
  simp only [mk.injEq] at full otherFull bound otherBound same ⊢
  exact ⟨same, by omega⟩

/-- A full buffer holds the first elements of what was held and unread, however
they arrived. -/
theorem held_fill_of_full {buffer : Filling Element size} {stream : List Element}
    {outcomes : List (Outcome Failure)} (full : (buffer.fill stream outcomes).stop = .full) :
    (buffer.fill stream outcomes).buffer.held = (buffer.held ++ stream).take size ∧
      (buffer.fill stream outcomes).stream = (buffer.held ++ stream).drop size := by
  have reached := (buffer.fill_full_iff stream outcomes).mp full
  have length : (buffer.fill stream outcomes).buffer.held.length = size := by
    rw [held_of_full reached]
    exact (buffer.fill stream outcomes).buffer.sized
  rw [← buffer.fill_held stream outcomes]
  exact ⟨(List.take_left' length).symm, (List.drop_left' length).symm⟩

variable (Failure) in
/-- One successful read of all that is missing fills the buffer. -/
theorem fill_whole {buffer : Filling Element size} {stream : List Element} (extra : Nat)
    (room : buffer.filled < size) (offered : size ≤ buffer.filled + extra + 1)
    (sufficient : size ≤ buffer.filled + stream.length) :
    (buffer.fill stream [.ready extra] : Filled Element Failure size).stop = .full ∧
      (buffer.fill stream [.ready extra] : Filled Element Failure size).outcomes = [] := by
  have length : (buffer.piece stream extra).length = size - buffer.filled := by
    rw [piece, List.length_take]
    omega
  have something : buffer.piece stream extra ≠ [] := by
    intro nothing
    rw [nothing, List.length_nil] at length
    omega
  have full : ¬ (buffer.accept (buffer.piece stream extra)
      (piece_fits stream extra room)).filled < size := by
    change ¬ buffer.filled + (buffer.piece stream extra).length < size
    omega
  rw [fill, dif_pos room]
  dsimp only
  rw [if_neg something, fill, if_neg full]
  exact ⟨rfl, rfl⟩

/-- A loop with no outcome to come leaves the buffer and the stream as they are. -/
theorem fill_nil (buffer : Filling Element size) (stream : List Element) :
    (buffer.fill stream [] : Filled Element Failure size).buffer = buffer ∧
      (buffer.fill stream [] : Filled Element Failure size).stream = stream := by
  rw [fill]
  split <;> exact ⟨rfl, rfl⟩

/-- One successful read from a stream that has something moves the loop forward:
it fills the buffer or waits again, with less of the stream left. -/
theorem fill_one {buffer : Filling Element size} {stream : List Element}
    (room : buffer.filled < size) (arrived : stream ≠ []) (extra : Nat)
    {filled : Filled Element Failure size}
    (read : buffer.fill stream [.ready extra] = filled) :
    (filled.stop = .cancelled ∨ filled.stop = .full) ∧ filled.outcomes = [] ∧
      filled.stream.length < stream.length := by
  have something : buffer.piece stream extra ≠ [] := by
    intro nothing
    rcases List.take_eq_nil_iff.mp nothing with zero | empty
    · omega
    · exact arrived empty
  have taken := List.length_pos_of_ne_nil something
  have available := buffer.piece_length_le stream extra
  have shorter : (stream.drop (buffer.piece stream extra).length).length < stream.length := by
    rw [List.length_drop]
    omega
  rw [fill, dif_pos room] at read
  dsimp only at read
  rw [if_neg something, fill] at read
  split at read
  · subst read
    exact ⟨.inl rfl, rfl, shorter⟩
  · subst read
    exact ⟨.inr rfl, rfl, shorter⟩

end Filling

end BitcoinPeers.Foundation

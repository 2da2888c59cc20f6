import BitcoinPeers.Connection.Stream

/-!
Contract: a handshake against a stream of bytes alone.

Owns:
- the ideal transport over a stream: writes succeed, reads return what is in
  front of the bytes;
- that sockets without failures bring a handshake through the same requests,
  whatever pieces the bytes come in, and that it ends.

Does not own: failing sockets.
-/

namespace BitcoinPeers.Connection

open BitcoinPeers.Foundation BitcoinPeers.Transport

/-! ## The ideal transport -/

/-- The transport over a stream that loses nothing and never waits. -/
def streamMedium (codec : Codec) : Medium (List UInt8) Unit where
  write bytes _ _ := (.ok (), bytes)
  read bytes _ :=
    (some (front codec.deserialize codec.magic bytes).result,
      left codec.deserialize codec.magic bytes)

section Script

variable (codec : Codec) (nonce : UInt64)

/-- The next request of a handshake against a stream. -/
def next (script : Course (List UInt8)) : Course (List UInt8) :=
  script.advance (streamMedium codec) nonce ()

/-- The handshake with the bytes it has not read, in whichever buffer. -/
def Course.script (course : Course Channel) : Course (List UInt8) :=
  ⟨course.events, course.channel.bytes, course.call⟩

/-- The turn has no failure. -/
def Turn.Calm (turn : Turn) : Prop :=
  turn.write = ⟨.ok (), .ok ()⟩ ∧ ∀ outcome ∈ turn.reads, outcome.isReady = true

/-- The turn has more reads than the stream has bytes. -/
def Turn.prompt (stream : List UInt8) (turn : Turn) : Bool :=
  decide (stream.length < turn.reads.length)

variable {codec nonce}

theorem next_returned {script : Course (List UInt8)} {connection : Connection}
    {result : Except ConnectionError Unit} (ended : script.call = .returned connection result) :
    next codec nonce script = script := by
  rw [next, Course.advance, ended]

/-- A calm turn follows the script, and a prompt one goes on in it. -/
theorem script_advances {course after : Course Channel} (on : course.channel.On codec)
    {turn : Turn} (calm : turn.Calm)
    (advances : course.Advances (v1Medium codec) nonce turn after) :
    after.channel.On codec ∧ after.channel.unread.length ≤ course.channel.unread.length ∧
      (after.script = next codec nonce course.script ∨
        after.script = course.script ∧ turn.reads.length ≤ course.channel.unread.length) := by
  cases advances with
  | returned ended => exact ⟨on, Nat.le_refl _, .inl (next_returned ended).symm⟩
  | tests position =>
      refine ⟨on, Nat.le_refl _, .inl ?_⟩
      simp only [next, Course.advance, Course.script, position]
  | @wrote connection message answered position answer channel written =>
      change course.channel.write codec message turn.write = _ at written
      obtain ⟨stays, same, -⟩ := Channel.write_cases on written
      simp only [Channel.write, calm.1, AsyncV1TransportWriter.write] at written
      obtain ⟨rfl, rfl⟩ := Prod.mk.inj written
      refine ⟨stays, Nat.le_refl _, .inl ?_⟩
      simp only [next, Course.advance, Course.script, position]
      rfl
  | @waits connection answered position channel read =>
      obtain ⟨stays, shorter, ⟨-, kept, few⟩ | ⟨answered, -⟩⟩ := Channel.read_calm on calm.2 read
      · refine ⟨stays, shorter, .inr ⟨?_, few⟩⟩
        rw [Course.script, kept]
        rfl
      · cases answered
  | @heard connection answered position answer channel read =>
      obtain ⟨stays, shorter, ⟨none, -⟩ | ⟨first, remaining⟩⟩ := Channel.read_calm on calm.2 read
      · cases none
      · refine ⟨stays, shorter, .inl ?_⟩
        simp only [next, Course.advance, Course.script, position, streamMedium]
        rw [← Option.some.inj first, remaining]

variable (nonce) in
/-- Calm turns go through the script, as far at least as there are prompt ones. -/
theorem script_after {stream : List UInt8} {turns : List Turn}
    (calm : ∀ turn ∈ turns, turn.Calm) {course : Course Channel} (on : course.channel.On codec)
    (within : course.channel.unread.length ≤ stream.length) :
    ∃ count, turns.countP (Turn.prompt stream) ≤ count ∧
      (course.after (v1Medium codec) nonce turns).script =
        (next codec nonce)^[count] course.script := by
  induction turns generalizing course with
  | nil => exact ⟨0, Nat.le_refl _, rfl⟩
  | cons turn rest inductionHypothesis =>
      have calmRest : ∀ later ∈ rest, later.Calm :=
        fun later member => calm later (List.mem_cons_of_mem _ member)
      obtain ⟨stays, shorter, moved⟩ := script_advances on (calm turn List.mem_cons_self)
        (course.advances (v1Medium codec) nonce turn)
      obtain ⟨count, enough, later⟩ := inductionHypothesis calmRest stays (shorter.trans within)
      have step : course.after (v1Medium codec) nonce (turn :: rest) =
          (course.advance (v1Medium codec) nonce turn).after (v1Medium codec) nonce rest := rfl
      rcases moved with onward | ⟨same, few⟩
      · refine ⟨count + 1, ?_, ?_⟩
        · have most := List.countP_cons (p := Turn.prompt stream) (a := turn) (l := rest)
          split at most <;> omega
        · rw [step, later, onward, Function.iterate_succ_apply]
      · refine ⟨count, ?_, ?_⟩
        · rw [List.countP_cons_of_neg]
          · exact enough
          · rw [Turn.prompt, decide_eq_true_eq]
            omega
        · rw [step, later, same]

/-! ## The script of a handshake -/

/-- A script after some requests: while it runs each has added an event, and it
has read the completions of the stream. -/
structure ScriptAt (codec : Codec) (stream : List UInt8) (count : Nat)
    (script : Course (List UInt8)) : Prop where
  asks : script.call.Asks
  busy : script.call.result = none → script.events.length = count
  heard : answersRead script.events =
    (replay codec.deserialize codec.magic stream (answersRead script.events).length).map
      Completion.result
  rest : script.channel =
    (left codec.deserialize codec.magic)^[(answersRead script.events).length] stream
  written : ∀ message error, .wrote message (.error error) ∉ script.events

theorem ScriptAt.next {stream : List UInt8} {count : Nat} {script : Course (List UInt8)}
    (here : ScriptAt codec stream count script) :
    ScriptAt codec stream (count + 1) (next codec nonce script) := by
  obtain ⟨asks, busy, heard, rest, written⟩ := here
  have unbroken : ∀ event message error, event ≠ .wrote message (.error error) →
      .wrote message (.error error) ∉ script.events ++ [event] := by
    intro event message error other member
    rcases List.mem_append.mp member with old | new
    · exact written message error old
    · exact other (List.mem_singleton.mp new).symm
  have advances := script.advances (streamMedium codec) nonce ()
  change script.Advances _ _ _ (Connection.next codec nonce script) at advances
  generalize Connection.next codec nonce script = after at advances
  cases advances with
  | @returned connection result ended =>
      refine ⟨asks, fun running => ?_, heard, rest, written⟩
      rw [ended] at running
      cases result <;> cases running
  | tests position =>
      rw [position] at asks
      exact asks.elim
  | waits position read => cases read
  | @wrote connection message answered position answer channel sent =>
      obtain ⟨rfl, rfl⟩ := Prod.mk.inj sent
      have length := busy (by rw [position]; rfl)
      have same : answersRead (script.events ++ [.wrote message (.ok ())]) =
          answersRead script.events := by
        rw [answersRead_concat]
        exact List.append_nil _
      refine ⟨asks_resume _ _, fun _ => by simp [length], ?_, ?_,
        fun message error => unbroken _ message error (by simp)⟩
      · rw [same]
        exact heard
      · rw [same]
        exact rest
  | @heard connection answered position answer channel read =>
      obtain ⟨first, rfl⟩ := Prod.mk.inj read
      obtain rfl := Option.some.inj first
      have length := busy (by rw [position]; rfl)
      refine ⟨asks_resume _ _, fun _ => by simp [length], ?_, ?_,
        fun message error => unbroken _ message error (by simp)⟩
      · dsimp only
        rw [answersRead_concat, List.length_append, rest]
        show _ = List.map _ (replay _ _ _ (_ + 1))
        rw [replay_concat, List.map_append, ← heard]
        rfl
      · dsimp only
        rw [answersRead_concat, List.length_append, rest]
        exact (Function.iterate_succ_apply' _ _ _).symm

theorem script_at (codec : Codec) (party : Party) (stream : List UInt8) (count : Nat) :
    ScriptAt codec stream count
      ((next codec party.nonce)^[count] (Course.v1 codec party stream).script) := by
  induction count with
  | zero =>
      have asks : (performHandshake party.nonce party.unixTimestamp
          (.new party.peer party.configuration)).Asks := asks_resume _ _
      exact ⟨asks, fun _ => rfl, rfl, rfl, fun _ _ member => absurd member List.not_mem_nil⟩
  | succ count inductionHypothesis =>
      rw [Function.iterate_succ_apply']
      exact inductionHypothesis.next

/-- A script that has returned stays. -/
theorem script_fixed {script : Course (List UInt8)} {count : Nat}
    (ended : ((next codec nonce)^[count] script).call.result ≠ none) (more : Nat) :
    (next codec nonce)^[more + count] script = (next codec nonce)^[count] script := by
  rw [Function.iterate_add_apply]
  apply Function.iterate_fixed
  cases position : ((next codec nonce)^[count] script).call with
  | returned connection result => exact next_returned position
  | running process =>
      rw [position] at ended
      exact absurd rfl ended

/-- A script returns in one way. -/
theorem script_unique {script : Course (List UInt8)} {left right : Nat}
    (one : ((next codec nonce)^[left] script).call.result ≠ none)
    (other : ((next codec nonce)^[right] script).call.result ≠ none) :
    (next codec nonce)^[left] script = (next codec nonce)^[right] script := by
  rw [← script_fixed one right, ← script_fixed other left, Nat.add_comm]

/-! ## The end of a handshake -/

/-- As many requests as a handshake on the stream can make, and one more. -/
def enoughTurns (stream : List UInt8) : Nat := stream.length / HEADER_SIZE + 6

/-- A handshake without a failure has made fewer requests. -/
theorem Tracks.length_lt {party : Party} {stream : List UInt8} {course : Course Channel}
    (tracks : Tracks codec stream course) (follows : Follows party course.events course.call) :
    course.events.length < enoughTurns stream := by
  have counted := follows.length_le
  have read := replay_ok_length tracks.front
  have share : (consumed course.events).length ≤ stream.length / HEADER_SIZE := by
    rw [Nat.le_div_iff_mul_le (by decide), Nat.mul_comm]
    exact read
  unfold enoughTurns
  omega

variable (codec) in
/-- Enough prompt turns bring a handshake to its end. -/
theorem returns_of_prompt (party : Party) {stream : List UInt8} {turns : List Turn}
    (calm : ∀ turn ∈ turns, turn.Calm)
    (enough : enoughTurns stream ≤ turns.countP (Turn.prompt stream)) :
    ((Course.v1 codec party stream).after (v1Medium codec) party.nonce turns).call.result ≠
      none := by
  intro waiting
  obtain ⟨status, tracks⟩ := tracks_after codec party stream turns
  cases status with
  | follows follows passes asks =>
      obtain ⟨count, most, same⟩ := script_after party.nonce calm
        (tracks_start codec party stream).on (Nat.le_refl stream.length)
      have there := script_at codec party stream count
      rw [← same] at there
      have length := there.busy waiting
      have bound : (Course.script _).events.length < enoughTurns stream :=
        tracks.length_lt follows
      omega
  | failed failed =>
      obtain ⟨connection, error, ended⟩ := failed.returned
      rw [ended] at waiting
      cases waiting

/-- A turn that accepts a write and brings the stream byte by byte. -/
def patientTurn (stream : List UInt8) : Turn :=
  ⟨⟨.ok (), .ok ()⟩, List.replicate (stream.length + 1) (.ready 0)⟩

theorem patientTurn_calm (stream : List UInt8) (count : Nat) :
    ∀ turn ∈ List.replicate count (patientTurn stream), turn.Calm := by
  intro turn member
  rw [List.eq_of_mem_replicate member]
  exact ⟨rfl, fun outcome found => by rw [List.eq_of_mem_replicate found]; rfl⟩

theorem patientTurn_prompt (stream : List UInt8) :
    enoughTurns stream ≤ (List.replicate (enoughTurns stream) (patientTurn stream)).countP
      (Turn.prompt stream) := by
  simp [List.countP_replicate, Turn.prompt, patientTurn]

variable (codec) in
/-- A socket without failures brings a handshake to a point of its script. -/
theorem script_of_calm (party : Party) (stream : List UInt8) {turns : List Turn}
    (calm : ∀ turn ∈ turns, turn.Calm) :
    ∃ count, ((Course.v1 codec party stream).after (v1Medium codec) party.nonce turns).script =
      (next codec party.nonce)^[count] (Course.v1 codec party stream).script := by
  obtain ⟨count, -, same⟩ := script_after party.nonce calm
    (tracks_start codec party stream).on (Nat.le_refl stream.length)
  exact ⟨count, same⟩

variable (codec) in
/-- On a stream a handshake has one end: it reads the completions of the stream,
and every socket without failures that brings it to an end brings it to this
one. -/
theorem handshake_determined (party : Party) (stream : List UInt8) :
    ∃ events result,
      Report party events (some result) ∧
      answersRead events = (replay codec.deserialize codec.magic stream
        (answersRead events).length).map Completion.result ∧
      ∀ turns : List Turn, (∀ turn ∈ turns, turn.Calm) →
        let course := (Course.v1 codec party stream).after (v1Medium codec) party.nonce turns
        (course.call.result ≠ none ∨ enoughTurns stream ≤ turns.countP (Turn.prompt stream)) →
          course.call.result = some result ∧ course.events = events := by
  let patient := List.replicate (enoughTurns stream) (patientTurn stream)
  have calmPatient := patientTurn_calm stream (enoughTurns stream)
  have ended := returns_of_prompt codec party calmPatient (patientTurn_prompt stream)
  obtain ⟨result, returned⟩ := Option.ne_none_iff_exists'.mp ended
  obtain ⟨count, script⟩ := script_of_calm codec party stream calmPatient
  have report := (account_after codec party stream patient).report
  rw [returned] at report
  have heard := (script_at codec party stream count).heard
  rw [← script] at heard
  refine ⟨_, result, report, heard, ?_⟩
  intro turns calm course returns
  obtain ⟨other, same⟩ := script_of_calm codec party stream calm
  have finished : course.call.result ≠ none := by
    rcases returns with here | enough
    · exact here
    · exact returns_of_prompt codec party calm enough
  have equal : course.script = Course.script (Course.after (v1Medium codec) party.nonce
      (Course.v1 codec party stream) patient) := by
    rw [same, script]
    apply script_unique
    · rw [← same]
      exact finished
    · rw [← script]
      exact ended
  constructor
  · rw [← returned]
    exact congrArg (fun script : Course (List UInt8) => script.call.result) equal
  · exact congrArg (fun script : Course (List UInt8) => script.events) equal

end Script

end BitcoinPeers.Connection

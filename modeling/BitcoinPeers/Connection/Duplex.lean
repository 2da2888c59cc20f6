import BitcoinPeers.Connection.Outcome
import BitcoinPeers.Foundation.Machine

/-!
Contract: two handshakes joined by lossless FIFO channels.

Owns:
- the system of two ends, each running `perform_handshake`, with every
  interleaving of their reads and writes, and writes by an end whose handshake
  has returned `Ok`;
- the link invariant: each end is where its own transcript puts it, and what one
  end has read and may still read is what the other has written;
- what one end can have read of the other's handshake.

Does not own: the agreement and the loop detection that follow.
-/

namespace BitcoinPeers.Connection

open BitcoinPeers.Foundation Computation

/-- The two ends of a link. -/
inductive Side where
  | left
  | right
deriving DecidableEq, Repr

namespace Side

def other : Side → Side
  | .left => .right
  | .right => .left

@[simp] theorem other_other (side : Side) : side.other.other = side := by
  cases side <;> rfl

@[simp] theorem other_ne (side : Side) : side.other ≠ side := by
  cases side <;> nofun

end Side

/-- What one end brings to its handshake. -/
structure Party where
  configuration : ConnectionConfiguration
  peer : Peer
  nonce : UInt64
  unixTimestamp : Int64

namespace Party

/-- The version message the party opens with. -/
def greeting (party : Party) : NetworkMessage :=
  opening party.configuration party.peer party.nonce party.unixTimestamp

def transcriptOf (party : Party) (messages : List NetworkMessage) : Transcript :=
  transcript party.configuration party.peer party.nonce party.unixTimestamp messages

end Party

/-- One end of the link. `consumed`, `written` and `posted` are histories. -/
structure End where
  call : Handshake
  /-- The channel from the other end. -/
  incoming : List NetworkMessage
  consumed : List NetworkMessage
  /-- Written by the handshake. -/
  written : List NetworkMessage
  /-- Written after the handshake returned `Ok`. -/
  posted : List NetworkMessage

/-- The whole link. -/
abbrev Duplex := Side → End

namespace Duplex

variable (parties : Side → Party)

def start : Duplex := fun side =>
  { call := performHandshake (parties side).nonce (parties side).unixTimestamp
      (.new (parties side).peer (parties side).configuration)
    incoming := [], consumed := [], written := [], posted := [] }

/-- Replace one end and put a message on the channel to the other. -/
def send (duplex : Duplex) (side : Side) (here : End) (message : NetworkMessage) : Duplex :=
  fun place =>
    if place = side then here
    else { duplex place with incoming := (duplex place).incoming ++ [message] }

/-- Replace one end. -/
def put (duplex : Duplex) (side : Side) (here : End) : Duplex :=
  fun place => if place = side then here else duplex place

inductive Action where
  /-- The handshake of this end performs the read or write it is at. -/
  | act (side : Side)
  /-- This end, its handshake completed, writes a message. -/
  | post (side : Side) (message : NetworkMessage)
deriving DecidableEq

def step (duplex : Duplex) : Action → Option Duplex
  | .act side =>
      let here := duplex side
      let nonce := (parties side).nonce
      match here.call with
      | .running (.ask _ (.write message) answered) =>
          some (duplex.send side
            { here with
              call := .resume nonce (answered (.ok ())), written := here.written ++ [message] }
            message)
      | .running (.ask _ .read answered) =>
          match here.incoming with
          | message :: rest =>
              some (duplex.put side
                { here with
                  call := .resume nonce (answered (.ok message)), incoming := rest
                  consumed := here.consumed ++ [message] })
          | [] => none
      | .running (.done connection outcome) =>
          some (duplex.put side { here with call := .resume nonce (.done connection outcome) })
      | .returned _ _ => none
  | .post side message =>
      let here := duplex side
      match here.call with
      | .returned _ (.ok ()) =>
          some (duplex.send side { here with posted := here.posted ++ [message] } message)
      | _ => none

def machine : Machine Duplex Action := ⟨step parties⟩

/-- The handshake of this end has returned `Ok` with the given connection. -/
def CompletedWith (duplex : Duplex) (side : Side) (connection : Connection) : Prop :=
  (duplex side).call = .returned connection (.ok ())

def Completed (duplex : Duplex) (side : Side) : Prop :=
  ∃ connection, duplex.CompletedWith side connection

/-- The handshake of this end has returned `ConnectionLoop`. -/
def Detected (duplex : Duplex) (side : Side) : Prop :=
  ∃ connection, (duplex side).call = .returned connection (.error .connectionLoop)

section Steps

variable (duplex : Duplex) (side : Side) (here : End) (message : NetworkMessage)

@[simp] theorem send_same : duplex.send side here message side = here := by
  simp [send]

@[simp] theorem send_other : duplex.send side here message side.other =
    { duplex side.other with incoming := (duplex side.other).incoming ++ [message] } := by
  simp [send]

@[simp] theorem put_same : duplex.put side here side = here := by
  simp [put]

@[simp] theorem put_other : duplex.put side here side.other = duplex side.other := by
  simp [put]

end Steps

/-! ## The link invariant -/

/-- The end is where its transcript puts it, up to writes that are pending. -/
def Settles (party : Party) (here : End) : Prop :=
  Transcript.settle party.nonce here.call here.consumed here.written =
    party.transcriptOf here.consumed

structure Linked (duplex : Duplex) : Prop where
  settles : ∀ side, Settles (parties side) (duplex side)
  flow : ∀ side, (duplex side.other).consumed ++ (duplex side.other).incoming =
    (duplex side).written ++ (duplex side).posted
  posts : ∀ side, (duplex side).posted ≠ [] → duplex.Completed side

theorem linked_start : Linked parties (start parties) :=
  ⟨fun _ => rfl, fun _ => rfl, fun _ nonempty => absurd rfl nonempty⟩

variable {parties}

theorem settle_write {nonce : UInt64} {connection : Connection} {message : NetworkMessage}
    {answered : Answer (.write message) →
      Process Connection Request Answer (Except ConnectionError HandshakeState)}
    (consumed written : List NetworkMessage) :
    Transcript.settle nonce (.resume nonce (answered (.ok ()))) consumed (written ++ [message]) =
      Transcript.settle nonce (.running (.ask connection (.write message) answered)) consumed
        written := by
  simp only [Transcript.settle]
  rw [flush_resume]
  simp [Handshake.flush, Process.serve, acceptWrites, Request.written]

theorem settle_done {nonce : UInt64} {connection : Connection}
    {outcome : Except ConnectionError HandshakeState} (consumed written : List NetworkMessage) :
    Transcript.settle nonce (.resume nonce (.done connection outcome)) consumed written =
      Transcript.settle nonce (.running (.done connection outcome)) consumed written := by
  simp only [Transcript.settle]
  rw [flush_resume]
  rfl

/-- A read moves the transcript by one message. -/
theorem settles_read {party : Party} {here : End} {connection : Connection}
    {answered : Answer .read →
      Process Connection Request Answer (Except ConnectionError HandshakeState)}
    (settles : Settles party here)
    (position : here.call = .running (.ask connection .read answered)) (message : NetworkMessage) :
    Transcript.settle party.nonce (.resume party.nonce (answered (.ok message)))
        (here.consumed ++ [message]) here.written =
      party.transcriptOf (here.consumed ++ [message]) := by
  have waits : party.transcriptOf here.consumed =
      ⟨.running (.ask connection .read answered), here.consumed, here.written⟩ := by
    rw [← settles, position]
    simp [Transcript.settle, Handshake.flush, Process.serve, acceptWrites, Handshake.resume]
  rw [Party.transcriptOf, transcript_concat]
  change _ = (party.transcriptOf here.consumed).next party.nonce message
  rw [waits]
  rfl

/-- A link is linked when it is so at one side and at the other. -/
theorem linked_of_sides {duplex : Duplex} (side : Side)
    (settles : Settles (parties side) (duplex side))
    (settlesOther : Settles (parties side.other) (duplex side.other))
    (outgoing : (duplex side.other).consumed ++ (duplex side.other).incoming =
      (duplex side).written ++ (duplex side).posted)
    (incoming : (duplex side).consumed ++ (duplex side).incoming =
      (duplex side.other).written ++ (duplex side.other).posted)
    (posts : (duplex side).posted ≠ [] → duplex.Completed side)
    (postsOther : (duplex side.other).posted ≠ [] → duplex.Completed side.other) :
    Linked parties duplex := by
  cases side with
  | left =>
      refine ⟨fun place => ?_, fun place => ?_, fun place => ?_⟩ <;> cases place <;> assumption
  | right =>
      refine ⟨fun place => ?_, fun place => ?_, fun place => ?_⟩ <;> cases place <;> assumption

section Moves

variable {duplex : Duplex} {side : Side} {here : End}

/-- An end that reads, or that only moves on. -/
theorem Linked.put (linked : Linked parties duplex) (settles : Settles (parties side) here)
    (read : here.consumed ++ here.incoming = (duplex side).consumed ++ (duplex side).incoming)
    (written : here.written = (duplex side).written) (posted : here.posted = (duplex side).posted)
    (posts : here.posted = []) : Linked parties (duplex.put side here) := by
  apply linked_of_sides side
  · rw [put_same]
    exact settles
  · rw [put_other]
    exact linked.settles side.other
  · rw [put_other, put_same, written, posted]
    exact linked.flow side
  · rw [put_other, put_same, read]
    have incoming := linked.flow side.other
    rw [Side.other_other] at incoming
    exact incoming
  · rw [put_same, posts]
    exact fun nonempty => absurd rfl nonempty
  · rw [put_other]
    intro nonempty
    obtain ⟨connection, completed⟩ := linked.posts side.other nonempty
    exact ⟨connection, by rw [CompletedWith, put_other]; exact completed⟩

/-- An end that puts a message on its channel. -/
theorem Linked.send (linked : Linked parties duplex) {message : NetworkMessage}
    (settles : Settles (parties side) here) (consumed : here.consumed = (duplex side).consumed)
    (incoming : here.incoming = (duplex side).incoming)
    (sent : here.written ++ here.posted =
      (duplex side).written ++ (duplex side).posted ++ [message])
    (posts : here.posted ≠ [] → ∃ connection, here.call = .returned connection (.ok ())) :
    Linked parties (duplex.send side here message) := by
  apply linked_of_sides side
  · rw [send_same]
    exact settles
  · rw [send_other]
    exact linked.settles side.other
  · rw [send_other, send_same, sent, ← linked.flow side, List.append_assoc]
  · rw [send_other, send_same, consumed, incoming]
    have received := linked.flow side.other
    rw [Side.other_other] at received
    exact received
  · intro nonempty
    rw [send_same] at nonempty
    obtain ⟨connection, completed⟩ := posts nonempty
    exact ⟨connection, by rw [CompletedWith, send_same]; exact completed⟩
  · intro nonempty
    rw [send_other] at nonempty
    obtain ⟨connection, completed⟩ := linked.posts side.other nonempty
    exact ⟨connection, by rw [CompletedWith, send_other]; exact completed⟩

/-- An end whose handshake runs has posted nothing. -/
theorem Linked.unposted (linked : Linked parties duplex)
    {process : Process Connection Request Answer (Except ConnectionError HandshakeState)}
    (running : (duplex side).call = .running process) : (duplex side).posted = [] := by
  by_contra nonempty
  obtain ⟨connection, completed⟩ := linked.posts side nonempty
  rw [CompletedWith, running] at completed
  cases completed

end Moves

theorem linked_act {duplex next : Duplex} {side : Side} (linked : Linked parties duplex)
    (stepped : step parties duplex (.act side) = some next) : Linked parties next := by
  have settles := linked.settles side
  simp only [step] at stepped
  split at stepped
  next connection message answered position =>
    cases stepped
    have unposted := linked.unposted position
    apply linked.send
    · rw [Settles, position] at settles
      exact (settle_write _ _).trans settles
    · rfl
    · rfl
    · simp [unposted]
    · exact fun nonempty => absurd unposted nonempty
  next connection answered position =>
    split at stepped
    next message rest queued =>
      cases stepped
      apply linked.put
      · exact settles_read settles position message
      · simp [queued]
      · rfl
      · rfl
      · exact linked.unposted position
    next => contradiction
  next connection outcome position =>
    cases stepped
    apply linked.put
    · rw [Settles, position] at settles
      exact (settle_done _ _).trans settles
    · rfl
    · rfl
    · rfl
    · exact linked.unposted position
  next => contradiction

theorem linked_post {duplex next : Duplex} {side : Side} {message : NetworkMessage}
    (linked : Linked parties duplex)
    (stepped : step parties duplex (.post side message) = some next) : Linked parties next := by
  simp only [step] at stepped
  split at stepped
  next connection position =>
    cases stepped
    apply linked.send
    · exact linked.settles side
    · rfl
    · rfl
    · simp
    · exact fun _ => ⟨connection, position⟩
  next => contradiction

theorem linked_run {Allowed : Duplex → Action → Prop} {actions : List Action} {duplex : Duplex}
    (run : (machine parties).Run Allowed (start parties) actions duplex) :
    Linked parties duplex := by
  apply run.invariant (Linked parties) _ (linked_start parties)
  intro state next action _ stepped linked
  cases action with
  | act side => exact linked_act linked stepped
  | post side message => exact linked_post linked stepped

/-! ## What an end has read of the other's handshake -/

section Reading

variable {duplex : Duplex}

/-- The transcript of one end. -/
def transcriptAt (parties : Side → Party) (duplex : Duplex) (side : Side) : Transcript :=
  (parties side).transcriptOf (duplex side).consumed

theorem Linked.stage (_linked : Linked parties duplex) (side : Side) :
    Stage (parties side).configuration (parties side).peer (parties side).nonce
      (parties side).greeting (duplex side).consumed (transcriptAt parties duplex side) :=
  stage_transcript _ _ _ _ _

theorem Linked.consumed_eq (linked : Linked parties duplex) (side : Side) :
    (transcriptAt parties duplex side).consumed = (duplex side).consumed := by
  rw [transcriptAt, ← linked.settles side]
  rfl

/-- What the handshake has written is the start of what its transcript writes. -/
theorem Linked.written_append (linked : Linked parties duplex) (side : Side) :
    (transcriptAt parties duplex side).written = (duplex side).written ++
      ((duplex side).call.flush (parties side).nonce).1 := by
  rw [transcriptAt, ← linked.settles side]
  rfl

/-- An end that has returned is at its transcript. -/
theorem Linked.returned (linked : Linked parties duplex) {side : Side} {connection : Connection}
    {result : Except ConnectionError Unit}
    (position : (duplex side).call = .returned connection result) :
    transcriptAt parties duplex side =
      ⟨.returned connection result, (duplex side).consumed, (duplex side).written⟩ := by
  rw [transcriptAt, ← linked.settles side, Transcript.settle, position]
  simp [Handshake.flush]

/-- An end that waits for a message is at its transcript. -/
theorem Linked.waits (linked : Linked parties duplex) {side : Side} {connection : Connection}
    {answered : Answer .read →
      Process Connection Request Answer (Except ConnectionError HandshakeState)}
    (position : (duplex side).call = .running (.ask connection .read answered)) :
    transcriptAt parties duplex side =
      ⟨.running (.ask connection .read answered), (duplex side).consumed,
        (duplex side).written⟩ := by
  rw [transcriptAt, ← linked.settles side, Transcript.settle, position]
  simp [Handshake.flush, Process.serve, acceptWrites, Handshake.resume]

/-- What was read before the last message read did not decide the handshake. -/
theorem Linked.undecided (linked : Linked parties duplex) {side : Side}
    {before after : List NetworkMessage} (split : (duplex side).consumed = before ++ after)
    (nonempty : after ≠ []) : Undecided (parties side).nonce before := by
  have stage := linked.stage side
  have consumed := linked.consumed_eq side
  rw [split] at stage consumed
  obtain ⟨rest, last, rfl⟩ : ∃ rest last, after = rest ++ [last] :=
    ⟨after.dropLast, after.getLast nonempty, (List.dropLast_append_getLast nonempty).symm⟩
  have shorter : ∀ {list : List NetworkMessage} {message : NetworkMessage},
      Undecided (parties side).nonce list → list ++ [message] = before ++ (rest ++ [last]) →
      Undecided (parties side).nonce before := by
    intro list message undecided same
    rw [← List.append_assoc] at same
    have equal := (List.append_inj_left' same rfl)
    rw [equal] at undecided
    exact undecided.of_append
  generalize transcriptAt parties duplex side = here at stage consumed
  generalize whole : before ++ (rest ++ [last]) = messages at stage consumed shorter
  cases stage with
  | reading undecided =>
      rw [← whole] at undecided
      exact undecided.of_append
  | finished after undecided other exchanged => exact shorter undecided consumed
  | looped after undecided equal => exact shorter undecided consumed

/-- Every handshake writes its version message, and after a version message of
the other side the feature messages and one verack. -/
theorem Linked.handshake_shape (linked : Linked parties duplex) (side : Side) :
    (transcriptAt parties duplex side).written = [(parties side).greeting] ∨
      ∃ version,
        (transcriptAt parties duplex side).written =
          ((parties side).greeting :: negotiation
            (parties side).configuration.featurePreferences
            (effectiveVersion (parties side).configuration version)) ++ [.verack] := by
  rw [(linked.stage side).written_eq]
  cases handledVersion (parties side).nonce (transcriptAt parties duplex side).consumed with
  | none => exact .inl rfl
  | some version => exact .inr ⟨version, rfl⟩

theorem verack_not_mem_negotiation (party : Party) (version : UInt32) :
    .verack ∉ party.greeting :: negotiation party.configuration.featurePreferences version := by
  intro member
  rcases List.mem_cons.mp member with greeting | negotiated
  · cases greeting
  · obtain ⟨feature, -, equal⟩ := List.mem_map.mp negotiated
    cases feature <;> cases equal

/-- The only version message of a handshake is the opening one. -/
theorem Linked.version_mem (linked : Linked parties duplex) {side : Side}
    {version : VersionMessage}
    (member : .version version ∈ (transcriptAt parties duplex side).written) :
    .version version = (parties side).greeting := by
  rcases linked.handshake_shape side with shape | ⟨answered, shape⟩
  · rw [shape] at member
    exact List.mem_singleton.mp member
  · rw [shape] at member
    rcases List.mem_append.mp member with first | last
    · rcases List.mem_cons.mp first with greeting | negotiated
      · exact greeting
      · obtain ⟨feature, -, equal⟩ := List.mem_map.mp negotiated
        cases feature <;> cases equal
    · cases List.mem_singleton.mp last

/-- A completed end has read a version and a verack, none of them its own, and
has written its whole handshake. -/
theorem Linked.completed (linked : Linked parties duplex) {side : Side} {connection : Connection}
    (completed : duplex.CompletedWith side connection) :
    Exchanged (duplex side).consumed ∧ ¬ Loops (parties side).nonce (duplex side).consumed ∧
      ∃ version, firstVersion (duplex side).consumed = some version ∧
        (duplex side).written =
          (parties side).greeting :: reply (parties side).configuration version := by
  have stage := linked.stage side
  rw [linked.returned completed] at stage
  exact stage.exchanged rfl

/-- The whole answer to a version message, and the version message before it,
decide a handshake. -/
theorem exchanged_handshake (party : Party) (version : VersionMessage) :
    Exchanged (party.greeting :: reply party.configuration version) :=
  ⟨⟨_, List.mem_cons_self⟩, List.mem_cons_of_mem _ (List.mem_append_right _ List.mem_cons_self)⟩

/-- What an end has read was written by the handshake of the other end. -/
theorem Linked.consumed_append (linked : Linked parties duplex) (side : Side) :
    ∃ rest, (duplex side.other).written = (duplex side).consumed ++ rest := by
  have flow := linked.flow side.other
  rw [Side.other_other] at flow
  by_cases posted : (duplex side.other).posted = []
  · rw [posted, List.append_nil] at flow
    exact ⟨_, flow.symm⟩
  · obtain ⟨connection, completed⟩ := linked.posts side.other posted
    obtain ⟨-, -, version, -, written⟩ := linked.completed completed
    rcases List.append_eq_append_iff.mp flow with ⟨rest, whole, -⟩ | ⟨rest, whole, -⟩
    · exact ⟨rest, whole⟩
    · by_cases nothing : rest = []
      · rw [nothing, List.append_nil] at whole
        exact ⟨[], by rw [whole, List.append_nil]⟩
      · exfalso
        apply (linked.undecided whole nothing).2
        rw [written]
        exact exchanged_handshake _ version

/-- An end that has read a verack has read exactly the other's handshake. -/
theorem Linked.consumed_all (linked : Linked parties duplex) {side : Side}
    (verack : .verack ∈ (duplex side).consumed) :
    (duplex side).consumed = (duplex side.other).written ∧
      ((duplex side.other).call.flush (parties side.other).nonce).1 = [] := by
  obtain ⟨rest, read⟩ := linked.consumed_append side
  have whole := linked.written_append side.other
  rcases linked.handshake_shape side.other with shape | ⟨version, shape⟩
  · rw [shape, read] at whole
    have member : .verack ∈ [(parties side.other).greeting] := by
      rw [whole]
      exact List.mem_append_left _ (List.mem_append_left _ verack)
    cases List.mem_singleton.mp member
  · rw [shape, read, List.append_assoc] at whole
    have absent := verack_not_mem_negotiation (parties side.other)
      (effectiveVersion (parties side.other).configuration version)
    rcases List.append_eq_append_iff.mp whole with ⟨middle, consumed, last⟩ |
      ⟨middle, front, last⟩
    · have nothing : rest ++
          ((duplex side.other).call.flush (parties side.other).nonce).1 = [] := by
        cases middle with
        | nil =>
            rw [List.append_nil] at consumed
            rw [consumed] at verack
            exact absurd verack absent
        | cons head tail =>
            have length := congrArg List.length last
            simp only [List.length_append, List.length_cons, List.length_nil] at length
            apply List.eq_nil_of_length_eq_zero
            simp only [List.length_append]
            omega
      obtain ⟨noRest, noPending⟩ := List.append_eq_nil_iff.mp nothing
      exact ⟨by rw [read, noRest, List.append_nil], noPending⟩
    · exfalso
      apply absent
      rw [front]
      exact List.mem_append_left _ verack

end Reading

end Duplex

end BitcoinPeers.Connection

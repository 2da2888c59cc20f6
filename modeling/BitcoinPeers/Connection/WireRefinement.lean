import BitcoinPeers.Connection.Agreement
import BitcoinPeers.Connection.Wire
import BitcoinPeers.Foundation.Simulation

/-!
Contract: the byte streams of `Wire` carry the messages of `Duplex`.

Owns:
- the relation between the two links: a write counts as done from its start on,
  and what is on the way to an end, in whichever buffer, is the encoding of the
  messages it has still to read;
- that every step of the wire is matched by at most one step of the message
  link.

Does not own: what follows for the connections.
-/

namespace BitcoinPeers.Connection

open BitcoinPeers.Foundation BitcoinPeers.Transport

/-! ## Frames of a growing stream -/

theorem cutFrame_sized {bytes frame rest : List UInt8}
    (cut : cutFrame bytes = .ok (frame, rest)) :
    frame.length = HEADER_SIZE + payloadLength frame := by
  unfold cutFrame at cut
  dsimp only at cut
  split at cut
  next => cases cut
  next whole =>
    split at cut
    next => cases cut
    next enough =>
      cases cut
      have header : (bytes.take HEADER_SIZE).length = HEADER_SIZE := by
        rw [List.length_take] at whole ⊢
        omega
      rw [payloadLength_append (Nat.le_of_eq header.symm), List.length_append, header]
      rw [List.length_take] at enough ⊢
      omega

/-- More bytes leave the first frame as it is. -/
theorem cutFrame_more {bytes frame rest : List UInt8}
    (cut : cutFrame bytes = .ok (frame, rest)) (more : List UInt8) :
    cutFrame (bytes ++ more) = .ok (frame, rest ++ more) := by
  obtain ⟨joined, whole⟩ := cutFrame_append cut
  rw [← joined, List.append_assoc]
  exact cutFrame_frame whole (cutFrame_sized cut) _

/-! ## The relation -/

/-- The call, where a write under way counts as done. -/
def Node.settled (nonce : UInt64) (node : Node) : Handshake :=
  match node.writing with
  | none => node.call
  | some _ => Wire.resumed nonce node.call

/-- The histories and the call of an end of the wire are those of the link. -/
structure Node.Matches (nonce : UInt64) (node : Node) (here : End) : Prop where
  call : here.call = node.settled nonce
  consumed : here.consumed = node.consumed
  written : here.written = node.written
  posted : here.posted = node.posted

/-- What an end of the wire can be in the middle of. -/
structure Node.Proper (node : Node) : Prop where
  waits : node.receiveState.Waits
  writes : node.writing ≠ none →
    (∃ connection message answered,
      node.call = .running (.ask connection (.write message) answered)) ∨
    ∃ connection, node.call = .returned connection (.ok ())
  takes : node.received ≠ [] → ∃ connection, node.call = .returned connection (.ok ())

/-- The application has taken the first of the incoming messages, and the bytes
on the way to the end are those of the others. -/
def Node.Conveys (codec : Codec) (node : Node) (unsent : List UInt8)
    (incoming : List NetworkMessage) : Prop :=
  ∃ taken queued, node.received = taken.map .ok ∧ incoming = taken ++ queued ∧
    node.receiveState.held ++ node.arriving ++ unsent = codec.encodeAll queued ∧
    ∀ message ∈ queued, codec.Sound message

namespace Wire

variable {codec : Codec} {parties : Side → Party} {wire : Wire} {duplex : Duplex}

structure Represents (codec : Codec) (parties : Side → Party) (wire : Wire) (duplex : Duplex) :
    Prop where
  linked : Duplex.Linked parties duplex
  ends : ∀ side, (wire side).Matches (parties side).nonce (duplex side)
  proper : ∀ side, (wire side).Proper
  flow : ∀ side, (wire side).Conveys codec (wire side.other).unsent (duplex side).incoming

theorem represents_start (codec : Codec) (parties : Side → Party) :
    Represents codec parties (start parties) (Duplex.start parties) where
  linked := Duplex.linked_start parties
  ends _ := ⟨rfl, rfl, rfl, rfl⟩
  proper _ := ⟨waits_fresh, fun none => absurd rfl none, fun none => absurd rfl none⟩
  flow _ := ⟨[], [], rfl, rfl, rfl, fun _ member => absurd member List.not_mem_nil⟩

theorem represents_of_sides (side : Side) (linked : Duplex.Linked parties duplex)
    (ends : (wire side).Matches (parties side).nonce (duplex side))
    (endsOther : (wire side.other).Matches (parties side.other).nonce (duplex side.other))
    (proper : (wire side).Proper) (properOther : (wire side.other).Proper)
    (flow : (wire side).Conveys codec (wire side.other).unsent (duplex side).incoming)
    (flowOther : (wire side.other).Conveys codec (wire side).unsent
      (duplex side.other).incoming) :
    Represents codec parties wire duplex := by
  cases side with
  | left =>
      refine ⟨linked, fun place => ?_, fun place => ?_, fun place => ?_⟩ <;> cases place <;>
        assumption
  | right =>
      refine ⟨linked, fun place => ?_, fun place => ?_, fun place => ?_⟩ <;> cases place <;>
        assumption

theorem Represents.flow_other (represents : Represents codec parties wire duplex) (side : Side) :
    (wire side.other).Conveys codec (wire side).unsent (duplex side.other).incoming := by
  have flow := represents.flow side.other
  rw [Side.other_other] at flow
  exact flow

/-- An end that changes its own part only, while the link stays or moves at that
end only. -/
theorem Represents.put (represents : Represents codec parties wire duplex) {side : Side}
    {node : Node} {next : Duplex} (linked : Duplex.Linked parties next)
    (other : next side.other = duplex side.other)
    (ends : node.Matches (parties side).nonce (next side)) (proper : node.Proper)
    (unsent : node.unsent = (wire side).unsent)
    (flow : node.Conveys codec (wire side.other).unsent (next side).incoming) :
    Represents codec parties (wire.put side node) next := by
  apply represents_of_sides side linked
  · rw [put_same]
    exact ends
  · rw [put_other, other]
    exact represents.ends side.other
  · rw [put_same]
    exact proper
  · rw [put_other]
    exact represents.proper side.other
  · rw [put_same, put_other]
    exact flow
  · rw [put_same, put_other, unsent, other]
    exact represents.flow_other side

/-- An end that starts to write a message, while the link sends it. -/
theorem Represents.begin (represents : Represents codec parties wire duplex) {side : Side}
    {node : Node} {here : End} {message : NetworkMessage} (idle : (wire side).writing = none)
    (linked : Duplex.Linked parties (duplex.send side here message))
    (ends : node.Matches (parties side).nonce here) (proper : node.Proper)
    (sound : codec.Sound message) (unsent : node.unsent = codec.encode message)
    (flow : node.Conveys codec (wire side.other).unsent here.incoming) :
    Represents codec parties (wire.put side node) (duplex.send side here message) := by
  apply represents_of_sides side linked
  · rw [put_same, Duplex.send_same]
    exact ends
  · rw [put_other, Duplex.send_other]
    have there := represents.ends side.other
    exact ⟨there.call, there.consumed, there.written, there.posted⟩
  · rw [put_same]
    exact proper
  · rw [put_other]
    exact represents.proper side.other
  · rw [put_same, put_other, Duplex.send_same]
    exact flow
  · rw [put_same, put_other, Duplex.send_other, unsent]
    obtain ⟨taken, queued, received, incoming, bytes, carried⟩ := represents.flow_other side
    have none : (wire side).unsent = [] := by rw [Node.unsent, idle]; rfl
    refine ⟨taken, queued ++ [message], received, ?_, ?_, fun other member => ?_⟩
    · rw [incoming, List.append_assoc]
    · rw [none, List.append_nil] at bytes
      rw [bytes, codec.encodeAll_concat]
    · rcases List.mem_append.mp member with old | new
      · exact carried other old
      · rw [List.mem_singleton.mp new]
        exact sound

/-! ## Messages on the wire -/

/-- A message a handshake is about to write is one the codec carries. -/
theorem Speaks.sound (speaks : Speaks codec parties) (linked : Duplex.Linked parties duplex)
    {side : Side} {connection : Connection} {message : NetworkMessage}
    {answered : Answer (.write message) →
      Process Connection Request Answer (Except ConnectionError HandshakeState)}
    (position : (duplex side).call = .running (.ask connection (.write message) answered)) :
    codec.Sound message := by
  have member : message ∈ (Duplex.transcriptAt parties duplex side).written := by
    rw [linked.written_append side, position]
    simp [Handshake.flush, Process.serve, acceptWrites, Request.written]
  have negotiated : ∀ version, message ∈ negotiation
      (parties side).configuration.featurePreferences version → codec.Sound message := by
    intro version offered
    obtain ⟨feature, -, rfl⟩ := List.mem_map.mp offered
    exact speaks.feature feature
  rcases linked.handshake_shape side with shape | ⟨version, shape⟩
  · rw [shape, List.mem_singleton] at member
    rw [member]
    exact speaks.greeting side
  · rw [shape] at member
    rcases List.mem_append.mp member with first | last
    · rcases List.mem_cons.mp first with greeting | offered
      · rw [greeting]
        exact speaks.greeting side
      · exact negotiated _ offered
    · rw [List.mem_singleton.mp last]
      exact speaks.verack

/-- The frame an end completes is the first message on the way to it. -/
theorem conveyed_frame {bytes frame rest unsent : List UInt8} {queued : List NetworkMessage}
    (carried : ∀ message ∈ queued, codec.Sound message)
    (onTheWay : bytes ++ unsent = codec.encodeAll queued)
    (cut : cutFrame bytes = .ok (frame, rest)) :
    ∃ message later, queued = message :: later ∧ rest ++ unsent = codec.encodeAll later ∧
      decodeFrame codec.deserialize codec.magic frame = .ok message := by
  have longer := cutFrame_more cut unsent
  rw [onTheWay] at longer
  cases queued with
  | nil =>
      rw [codec.encodeAll_nil, cutFrame_header (show [].length < HEADER_SIZE by decide)] at longer
      cases longer
  | cons message later =>
      have sound := carried message List.mem_cons_self
      rw [codec.encodeAll_cons, sound.cutFrame, Except.ok.injEq, Prod.mk.injEq] at longer
      refine ⟨message, later, rfl, longer.2.symm, ?_⟩
      rw [← longer.1]
      exact sound.decodeFrame

section Moves

variable {side : Side} {extra : Nat}

/-- An end whose underlying read leaves it waiting keeps everything on its
way. -/
theorem Represents.waits (represents : Represents codec parties wire duplex)
    (arrived : (wire side).arriving ≠ [])
    (unfinished : ∀ result, (called codec (wire side) extra).call ≠ .finished result) :
    Represents codec parties (wire.put side (moved codec (wire side) extra)) duplex := by
  have ends := represents.ends side
  have proper := represents.proper side
  obtain ⟨advances, -⟩ := readMessage_advances codec.deserialize codec.magic proper.waits arrived
    extra
  cases advances with
  | returns cut result cleared => exact absurd result (unfinished _)
  | waits suspended kept waiting =>
      obtain ⟨taken, queued, received, incoming, bytes, carried⟩ := represents.flow side
      apply represents.put represents.linked rfl
      · exact ⟨ends.call, ends.consumed, ends.written, ends.posted⟩
      · exact ⟨waiting, proper.writes, proper.takes⟩
      · rfl
      · refine ⟨taken, queued, received, incoming, ?_, carried⟩
        rw [← bytes, ← kept]
        rfl

/-- What an underlying read that completes a call returns: the first message on
the way, leaving those after it. -/
theorem Represents.completes (represents : Represents codec parties wire duplex)
    (arrived : (wire side).arriving ≠ []) {result : Except TransportError NetworkMessage}
    (finished : (called codec (wire side) extra).call = .finished result) :
    (moved codec (wire side) extra).receiveState.Waits ∧
      ∃ message taken later, result = .ok message ∧
        (wire side).received = taken.map .ok ∧
        (duplex side).incoming = taken ++ message :: later ∧
        (moved codec (wire side) extra).receiveState.held ++
            (moved codec (wire side) extra).arriving ++ (wire side.other).unsent =
          codec.encodeAll later ∧
        ∀ other ∈ later, codec.Sound other := by
  have proper := represents.proper side
  obtain ⟨taken, queued, received, incoming, bytes, carried⟩ := represents.flow side
  obtain ⟨advances, -⟩ := readMessage_advances codec.deserialize codec.magic proper.waits arrived
    extra
  cases advances with
  | waits suspended kept waiting =>
      rw [called, suspended] at finished
      cases finished
  | returns cut returned cleared =>
      obtain ⟨message, later, rfl, rest, decoded⟩ := conveyed_frame carried bytes cut
      have fresh : (moved codec (wire side) extra).receiveState = .fresh := cleared message decoded
      rw [called, returned, decoded] at finished
      cases finished
      rw [fresh]
      refine ⟨waits_fresh, message, taken, later, rfl, received, incoming, rest,
        fun other member => carried other (List.mem_cons_of_mem _ member)⟩

/-- What one step of the wire is matched by. -/
def Matched (codec : Codec) (parties : Side → Party) (duplex : Duplex) (next : Wire) : Prop :=
  ∃ beyond, (Duplex.machine parties).Reaches duplex beyond ∧
    Represents codec parties next beyond

theorem Represents.write (speaks : Speaks codec parties)
    (represents : Represents codec parties wire duplex) {connection : Connection}
    {message : NetworkMessage}
    {answered : Answer (.write message) →
      Process Connection Request Answer (Except ConnectionError HandshakeState)}
    (idle : (wire side).writing = none)
    (position : (wire side).call = .running (.ask connection (.write message) answered)) :
    Matched codec parties duplex
      (wire.put side
        { wire side with
          writing := some (codec.encode message)
          written := (wire side).written ++ [message] }) := by
  have linked := represents.linked
  have ends := represents.ends side
  have proper := represents.proper side
  have call : (duplex side).call = .running (.ask connection (.write message) answered) := by
    rw [ends.call, Node.settled, idle]
    exact position
  have stepped : (Duplex.machine parties).step duplex (.act side) =
      some (duplex.send side
        { duplex side with
          call := .resume (parties side).nonce (answered (.ok ()))
          written := (duplex side).written ++ [message] } message) := by
    simp only [Duplex.machine, Duplex.step, call]
  refine ⟨_, .of_step stepped, represents.begin idle (Duplex.linked_act linked stepped) ?_ ?_
    (speaks.sound linked call) rfl (represents.flow side)⟩
  · refine ⟨?_, ends.consumed, by rw [ends.written], ends.posted⟩
    simp only [Node.settled, position, resumed]
  · exact ⟨proper.waits, fun _ => .inl ⟨_, _, _, position⟩, proper.takes⟩

theorem Represents.loopTest (represents : Represents codec parties wire duplex)
    {connection : Connection} {outcome : Except ConnectionError HandshakeState}
    (idle : (wire side).writing = none)
    (position : (wire side).call = .running (.done connection outcome)) :
    Matched codec parties duplex
      (wire.put side
        { wire side with call := .resume (parties side).nonce (.done connection outcome) }) := by
  have ends := represents.ends side
  have proper := represents.proper side
  have call : (duplex side).call = .running (.done connection outcome) := by
    rw [ends.call, Node.settled, idle]
    exact position
  have stepped : (Duplex.machine parties).step duplex (.act side) =
      some (duplex.put side
        { duplex side with
          call := .resume (parties side).nonce (.done connection outcome) }) := by
    simp only [Duplex.machine, Duplex.step, call]
  refine ⟨_, .of_step stepped, represents.put (Duplex.linked_act represents.linked stepped)
    (Duplex.put_other _ _ _) ?_ ?_ rfl ?_⟩
  · rw [Duplex.put_same]
    exact ⟨by simp only [Node.settled, idle], ends.consumed, ends.written, ends.posted⟩
  · refine ⟨proper.waits, fun busy => absurd idle busy, fun some => ?_⟩
    obtain ⟨connection, returned⟩ := proper.takes some
    rw [position] at returned
    cases returned
  · rw [Duplex.put_same]
    exact represents.flow side

theorem Represents.post (represents : Represents codec parties wire duplex)
    {connection : Connection} {message : NetworkMessage} (sound : codec.Sound message)
    (idle : (wire side).writing = none)
    (position : (wire side).call = .returned connection (.ok ())) :
    Matched codec parties duplex
      (wire.put side
        { wire side with
          writing := some (codec.encode message)
          posted := (wire side).posted ++ [message] }) := by
  have ends := represents.ends side
  have proper := represents.proper side
  have call : (duplex side).call = .returned connection (.ok ()) := by
    rw [ends.call, Node.settled, idle]
    exact position
  have stepped : (Duplex.machine parties).step duplex (.post side message) =
      some (duplex.send side
        { duplex side with posted := (duplex side).posted ++ [message] } message) := by
    simp only [Duplex.machine, Duplex.step, call]
  refine ⟨_, .of_step stepped, represents.begin idle
    (Duplex.linked_post represents.linked stepped) ?_ ?_ sound rfl (represents.flow side)⟩
  · refine ⟨?_, ends.consumed, ends.written, by rw [ends.posted]⟩
    simp only [Node.settled, position, resumed]
    exact call
  · exact ⟨proper.waits, fun _ => .inr ⟨_, position⟩, proper.takes⟩

/-- Bytes that leave one end are on their way to the other. -/
theorem Represents.push (represents : Represents codec parties wire duplex) {data : List UInt8}
    (under : (wire side).writing = some data) (count : Nat) :
    Represents codec parties
      (wire.pass side { wire side with writing := some (data.drop count) } (data.take count))
      duplex := by
  have ends := represents.ends side
  have proper := represents.proper side
  have there := represents.ends side.other
  have properThere := represents.proper side.other
  apply represents_of_sides side represents.linked
  · rw [pass_same]
    refine ⟨?_, ends.consumed, ends.written, ends.posted⟩
    rw [ends.call, Node.settled, Node.settled, under]
  · rw [pass_other]
    exact ⟨there.call, there.consumed, there.written, there.posted⟩
  · rw [pass_same]
    refine ⟨proper.waits, fun _ => proper.writes ?_, proper.takes⟩
    rw [under]
    simp
  · rw [pass_other]
    exact ⟨properThere.waits, properThere.writes, properThere.takes⟩
  · rw [pass_same, pass_other]
    exact represents.flow side
  · rw [pass_same, pass_other]
    obtain ⟨taken, queued, received, incoming, bytes, carried⟩ := represents.flow_other side
    refine ⟨taken, queued, received, incoming, ?_, carried⟩
    rw [← bytes]
    simp [Node.unsent, under]

theorem Represents.finish (represents : Represents codec parties wire duplex)
    (under : (wire side).writing = some []) :
    Represents codec parties
      (wire.put side
        { wire side with
          writing := none, call := resumed (parties side).nonce (wire side).call })
      duplex := by
  have ends := represents.ends side
  have proper := represents.proper side
  apply represents.put represents.linked rfl
  · refine ⟨?_, ends.consumed, ends.written, ends.posted⟩
    rw [ends.call, Node.settled, under]
    rfl
  · refine ⟨proper.waits, fun busy => absurd rfl busy, fun some => ?_⟩
    obtain ⟨connection, returned⟩ := proper.takes some
    exact ⟨connection, by simp only [returned, resumed]⟩
  · simp [Node.unsent, under]
  · exact represents.flow side

theorem Represents.read (represents : Represents codec parties wire duplex)
    {connection : Connection}
    {answered : Answer .read →
      Process Connection Request Answer (Except ConnectionError HandshakeState)}
    {result : Except TransportError NetworkMessage} (arrived : (wire side).arriving ≠ [])
    (position : (wire side).call = .running (.ask connection .read answered))
    (finished : (called codec (wire side) extra).call = .finished result) :
    Matched codec parties duplex
      (wire.put side
        { moved codec (wire side) extra with
          call := .resume (parties side).nonce (answered result)
          consumed := (wire side).consumed ++ result.toOption.toList }) := by
  have ends := represents.ends side
  have proper := represents.proper side
  have idle : (wire side).writing = none := by
    by_contra busy
    rcases proper.writes busy with ⟨_, _, _, other⟩ | ⟨_, other⟩ <;> rw [position] at other <;>
      cases other
  have call : (duplex side).call = .running (.ask connection .read answered) := by
    rw [ends.call, Node.settled, idle]
    exact position
  have early : (wire side).received = [] := by
    by_contra some
    obtain ⟨_, other⟩ := proper.takes some
    rw [position] at other
    cases other
  obtain ⟨waits, message, taken, later, rfl, received, incoming, bytes, sound⟩ :=
    represents.completes arrived finished
  have untaken : taken = [] := List.map_eq_nil_iff.mp (received.symm.trans early)
  rw [untaken, List.nil_append] at incoming
  have stepped : (Duplex.machine parties).step duplex (.act side) =
      some (duplex.put side
        { duplex side with
          call := .resume (parties side).nonce (answered (.ok message)), incoming := later
          consumed := (duplex side).consumed ++ [message] }) := by
    simp only [Duplex.machine, Duplex.step, call, incoming]
  refine ⟨_, .of_step stepped, represents.put (Duplex.linked_act represents.linked stepped)
    (Duplex.put_other _ _ _) ?_ ?_ rfl ?_⟩
  · rw [Duplex.put_same]
    refine ⟨?_, ?_, ends.written, ends.posted⟩
    · simp only [Node.settled, moved, idle]
    · rw [ends.consumed]
      rfl
  · exact ⟨waits, fun busy => absurd idle busy, fun some => absurd early some⟩
  · rw [Duplex.put_same]
    exact ⟨[], later, early, rfl, bytes, sound⟩

theorem Represents.take (represents : Represents codec parties wire duplex)
    {connection : Connection} {result : Except TransportError NetworkMessage}
    (arrived : (wire side).arriving ≠ [])
    (position : (wire side).call = .returned connection (.ok ()))
    (finished : (called codec (wire side) extra).call = .finished result) :
    Represents codec parties
      (wire.put side
        { moved codec (wire side) extra with received := (wire side).received ++ [result] })
      duplex := by
  have ends := represents.ends side
  have proper := represents.proper side
  obtain ⟨waits, message, taken, later, rfl, received, incoming, bytes, sound⟩ :=
    represents.completes arrived finished
  apply represents.put represents.linked rfl
  · exact ⟨ends.call, ends.consumed, ends.written, ends.posted⟩
  · exact ⟨waits, proper.writes, fun _ => ⟨connection, position⟩⟩
  · rfl
  · refine ⟨taken ++ [message], later, ?_, ?_, bytes, sound⟩
    · rw [received, List.map_append]
      rfl
    · rw [incoming]
      simp

/-- One step of the wire, matched by the link. -/
theorem Represents.step (speaks : Speaks codec parties) {action : Action} {next : Wire}
    (represents : Represents codec parties wire duplex) (carried : Carried codec wire action)
    (moves : Moves codec parties wire action next) : Matched codec parties duplex next := by
  have stutters : Represents codec parties next duplex → Matched codec parties duplex next :=
    fun same => ⟨duplex, .refl duplex, same⟩
  cases moves with
  | write idle position => exact represents.write speaks idle position
  | loopTest idle position => exact represents.loopTest idle position
  | post idle position => exact represents.post carried idle position
  | push under _ => exact stutters (represents.push under _)
  | finish under => exact stutters (represents.finish under)
  | wait arrived reads unfinished => exact stutters (represents.waits arrived unfinished)
  | read arrived position finished => exact represents.read arrived position finished
  | take arrived position finished => exact stutters (represents.take arrived position finished)

end Moves

/-- Every run of the wire is matched by a run of the link. -/
theorem represents_run (speaks : Speaks codec parties) {actions : List Action}
    (run : (machine codec parties).Run (Carried codec) (start parties) actions wire) :
    ∃ duplex, (Duplex.machine parties).Reaches (Duplex.start parties) duplex ∧
      Represents codec parties wire duplex := by
  have simulates : (machine codec parties).Simulates (Carried codec) (Duplex.machine parties)
      (Represents codec parties) := by
    intro state action next opposite carried stepped represents
    exact represents.step speaks carried (moves_of_step stepped)
  exact run.simulated simulates (represents_start codec parties)

end Wire

end BitcoinPeers.Connection

import Mathlib.Algebra.Order.BigOperators.Group.List
import BitcoinPeers.Connection.WireAgreement

/-!
Contract: two handshakes over byte streams end.

Owns the number of socket operations that the messages of a handshake can need,
and that no run of two handshakes takes more, however the sockets cut the
streams.

Does not own: operations of an application.
-/

namespace BitcoinPeers.Connection

open BitcoinPeers.Foundation BitcoinPeers.Transport


/-- The call is suspended at a request or has returned. -/
def Handshake.Asks : Handshake → Prop
  | .running (.done _ _) => False
  | _ => True

theorem asks_resume (nonce : UInt64)
    (process : Process Connection Request Answer (Except ConnectionError HandshakeState)) :
    (Handshake.resume nonce process).Asks := by
  cases process with
  | ask connection request answered => trivial
  | done connection outcome =>
      cases outcome with
      | error error => trivial
      | ok state =>
          cases state with
          | complete => trivial
          | _ =>
              simp only [Handshake.resume, handshakeRound_eq]
              trivial

/-- The socket operations that move a message from one end to the other, at
most: each byte is pushed and pulled, and the write starts and returns. -/
def Codec.cost (codec : Codec) (message : NetworkMessage) : Nat :=
  2 * (codec.encode message).length + 2

def Codec.costs (codec : Codec) (messages : List NetworkMessage) : Nat :=
  (messages.map codec.cost).sum

/-- Every message a handshake can write. -/
def Party.vocabulary (party : Party) : List NetworkMessage :=
  party.greeting :: Feature.all.map Feature.message ++ [.verack]

/-- The operations an end still has to see for the bytes it has. -/
def Node.load (node : Node) : Nat :=
  2 * node.unsent.length + (if node.writing = none then 0 else 1) + node.arriving.length

namespace Wire

variable {codec : Codec} {parties : Side → Party} {wire : Wire} {duplex : Duplex}

/-- The step is not the start of an application's write. -/
def Silent (_ : Wire) : Action → Prop
  | .post _ _ => False
  | _ => True

theorem carried_of_silent {action : Action} (silent : Silent wire action) :
    Carried codec wire action := by
  cases action with
  | post side message => exact silent.elim
  | _ => trivial

/-- A quantity of both ends. -/
def total (measure : Node → Nat) (wire : Wire) : Nat := measure (wire .left) + measure (wire .right)

theorem total_put (wire : Wire) (measure : Node → Nat) (side : Side) (node : Node) :
    total measure (wire.put side node) + measure (wire side) =
      total measure wire + measure node := by
  cases side with
  | left =>
      simp only [total, put, if_true, reduceCtorEq, if_false]
      omega
  | right =>
      simp only [total, put, if_true, reduceCtorEq, if_false]
      omega

theorem total_pass (wire : Wire) (measure : Node → Nat) (side : Side) (node : Node)
    (bytes : List UInt8) :
    total measure (wire.pass side node bytes) + measure (wire side) +
        measure (wire side.other) =
      total measure wire + measure node +
        measure { wire side.other with arriving := (wire side.other).arriving ++ bytes } := by
  cases side with
  | left =>
      simp only [total, pass, Side.other, if_true, reduceCtorEq, if_false]
      omega
  | right =>
      simp only [total, pass, Side.other, if_true, reduceCtorEq, if_false]
      omega

/-- What the handshakes of both ends have written, in operations. -/
def account (codec : Codec) (wire : Wire) : Nat := total (fun node => codec.costs node.written) wire

/-- A step of one end is paid for when it is so at that end. -/
theorem covered_put {side : Side} {node : Node}
    (paid : 1 + node.load + codec.costs (wire side).written ≤
      (wire side).load + codec.costs node.written) :
    1 + total Node.load (wire.put side node) + account codec wire ≤
      total Node.load wire + account codec (wire.put side node) := by
  have load := total_put wire Node.load side node
  have costs := total_put wire (fun node => codec.costs node.written) side node
  unfold account
  omega

/-- An underlying read is paid for by the bytes it takes. -/
theorem covered_pull {side : Side} {node : Node} (sent : node.writing = (wire side).writing)
    (written : node.written = (wire side).written)
    (taken : node.arriving.length < (wire side).arriving.length) :
    1 + total Node.load (wire.put side node) + account codec wire ≤
      total Node.load wire + account codec (wire.put side node) := by
  apply covered_put
  rw [written]
  simp only [Node.load, Node.unsent, sent]
  omega

/-- Bytes that leave are paid for by what is left to send. -/
theorem covered_push {side : Side} {data : List UInt8} (under : (wire side).writing = some data)
    (some : data ≠ []) (count : Nat) :
    let next := wire.pass side { wire side with writing := .some (data.drop (count + 1)) }
      (data.take (count + 1))
    1 + total Node.load next + account codec wire ≤
      total Node.load wire + account codec next := by
  intro next
  have load := total_pass wire Node.load side
    { wire side with writing := .some (data.drop (count + 1)) } (data.take (count + 1))
  have costs := total_pass wire (fun node => codec.costs node.written) side
    { wire side with writing := .some (data.drop (count + 1)) } (data.take (count + 1))
  change total Node.load next + _ + _ = _ at load
  change account codec next + _ + _ = account codec wire + _ + _ at costs
  have left := List.length_pos_of_ne_nil some
  have here : (wire side).load = 2 * data.length + 1 + (wire side).arriving.length := by
    simp [Node.load, Node.unsent, under]
  have after : Node.load { wire side with writing := .some (data.drop (count + 1)) } =
      2 * (data.length - (count + 1)) + 1 + (wire side).arriving.length := by
    simp [Node.load, Node.unsent]
  have other : ∀ node : Node,
      Node.load { node with arriving := node.arriving ++ data.take (count + 1) } =
        node.load + min (count + 1) data.length := by
    intro node
    simp only [Node.load, Node.unsent, List.length_append, List.length_take]
    omega
  rw [here, after, other] at load
  simp only at costs
  omega

/-- Every silent step is paid for by the messages the handshakes have written. -/
theorem covered_step {action : Action} {next : Wire} (silent : Silent wire action)
    (waits : ∀ side, (wire side).receiveState.Waits) (asks : ∀ side, (wire side).call.Asks)
    (moves : Moves codec parties wire action next) :
    1 + total Node.load next + account codec wire ≤
      total Node.load wire + account codec next := by
  have shorter : ∀ side extra, (wire side).arriving ≠ [] →
      (moved codec (wire side) extra).arriving.length < (wire side).arriving.length := by
    intro side extra arrived
    exact (readMessage_advances codec.deserialize codec.magic (waits side) arrived extra).2
  cases moves with
  | write idle position =>
      apply covered_put
      simp only [Node.load, Node.unsent, idle, Codec.costs, Codec.cost, List.map_append,
        List.sum_append, List.map_cons, List.map_nil, List.sum_cons, List.sum_nil,
        Option.getD_none, Option.getD_some, List.length_nil, if_true, reduceCtorEq, if_false]
      omega
  | @loopTest side connection outcome idle position =>
      have stopped := asks side
      rw [position] at stopped
      exact stopped.elim
  | post idle position => exact silent.elim
  | push under some => exact covered_push under some _
  | finish under =>
      apply covered_put
      simp only [Node.load, Node.unsent, under, Option.getD_none, Option.getD_some,
        List.length_nil, if_true, reduceCtorEq, if_false]
      omega
  | wait arrived reads unfinished => exact covered_pull rfl rfl (shorter _ _ arrived)
  | read arrived position finished => exact covered_pull rfl rfl (shorter _ _ arrived)
  | take arrived position finished => exact covered_pull rfl rfl (shorter _ _ arrived)

theorem asks_start (parties : Side → Party) (side : Side) : (start parties side).call.Asks := by
  show (performHandshake _ _ _).Asks
  exact asks_resume _ _

/-- Calls are suspended at requests after every step. -/
theorem asks_moves {action : Action} {next : Wire} (asks : ∀ side, (wire side).call.Asks)
    (moves : Moves codec parties wire action next) (side : Side) : (next side).call.Asks := by
  have put_asks : ∀ {here : Side} {node : Node}, node.call.Asks →
      (wire.put here node side).call.Asks := by
    intro here node there
    unfold put
    split
    · exact there
    · exact asks side
  cases moves with
  | write idle position => exact put_asks (asks _)
  | loopTest idle position => exact put_asks (asks_resume _ _)
  | post idle position => exact put_asks (asks _)
  | push under some =>
      unfold pass
      split
      · exact asks _
      · exact asks side
  | @finish here under =>
      apply put_asks
      show (resumed _ (wire here).call).Asks
      have there := asks here
      unfold resumed
      split
      · exact asks_resume _ _
      · exact there
  | wait arrived reads unfinished => exact put_asks (asks _)
  | read arrived position finished => exact put_asks (asks_resume _ _)
  | take arrived position finished => exact put_asks (asks _)

/-- A handshake writes part of its vocabulary, in order. -/
theorem written_sublist (linked : Duplex.Linked parties duplex) (side : Side) :
    (duplex side).written.Sublist (parties side).vocabulary := by
  have part : (duplex side).written.Sublist (Duplex.transcriptAt parties duplex side).written := by
    rw [linked.written_append side]
    exact List.sublist_append_left _ _
  apply part.trans
  rcases linked.handshake_shape side with shape | ⟨version, shape⟩
  · rw [shape]
    exact (List.nil_sublist _).cons_cons _
  · rw [shape, Party.vocabulary, negotiation]
    exact ((List.filter_sublist.map _).cons_cons _).append (List.Sublist.refl _)

theorem account_le (represents : Represents codec parties wire duplex) :
    account codec wire ≤
      codec.costs (parties .left).vocabulary + codec.costs (parties .right).vocabulary := by
  have bound : ∀ side, codec.costs (wire side).written ≤
      codec.costs (parties side).vocabulary := by
    intro side
    rw [← (represents.ends side).written]
    exact ((written_sublist represents.linked side).map codec.cost).sum_le_sum
      fun _ _ => Nat.zero_le _
  exact Nat.add_le_add (bound .left) (bound .right)

/-- The executable form of `Silent`. -/
def silent (_ : Wire) : Action → Bool
  | .post _ _ => false
  | _ => true

theorem silent_sound (wire : Wire) (action : Action) (passed : silent wire action = true) :
    Silent wire action := by
  cases action with
  | post side message => cases passed
  | _ => trivial

/-- Two handshakes with different nonces over byte streams end: without
application writes, a run has at most as many steps as the handshakes' messages
can need, and a run that cannot be extended has completed both. -/
theorem wire_handshake_terminates (codec : Codec) (parties : Side → Party)
    (speaks : Speaks codec parties)
    (distinct : (parties .left).nonce ≠ (parties .right).nonce)
    {actions : List Action} {wire : Wire}
    (run : (machine codec parties).Run Silent (start parties) actions wire) :
    actions.length ≤
        codec.costs (parties .left).vocabulary + codec.costs (parties .right).vocabulary ∧
      ((∀ action next, Silent wire action → (machine codec parties).step wire action ≠ some next) →
        wire.Completed .left ∧ wire.Completed .right) := by
  have carried : (machine codec parties).Run (Carried codec) (start parties) actions wire :=
    run.mono fun _ _ silent => carried_of_silent silent
  obtain ⟨duplex, -, represents⟩ := represents_run speaks carried
  constructor
  · have spent := run.length_add_le
      (fun wire =>
        (∃ duplex, Represents codec parties wire duplex) ∧ ∀ side, (wire side).call.Asks)
      (total Node.load) (account codec)
      (fun silent stepped holds => by
        obtain ⟨⟨opposite, here⟩, asks⟩ := holds
        have moves := moves_of_step stepped
        obtain ⟨beyond, -, there⟩ := here.step speaks (carried_of_silent silent) moves
        exact ⟨⟨beyond, there⟩, asks_moves asks moves⟩)
      (fun silent holds stepped => by
        obtain ⟨⟨opposite, here⟩, asks⟩ := holds
        exact covered_step silent (fun side => (here.proper side).waits) asks
          (moves_of_step stepped))
      ⟨⟨_, represents_start codec parties⟩, asks_start parties⟩
    have bound := account_le represents
    have empty : total Node.load (start parties) = 0 := rfl
    omega
  · intro stuck
    apply represents.completed distinct
    intro action next stepped
    cases action with
    | post side message => exact ⟨side, message, rfl⟩
    | _ => exact absurd stepped (stuck _ next trivial)

theorem wire_handshake_terminates_sample :
    ∃ wire, (machine sampleCodec samples).Run Silent (start samples) sampleHandshakes wire ∧
      sampleHandshakes.length ≤ sampleCodec.costs (samples .left).vocabulary +
        sampleCodec.costs (samples .right).vocabulary := by
  obtain ⟨wire, run, -⟩ := Machine.exists_run_of_execute silent (fun _ => true) silent_sound
    (show ((machine sampleCodec samples).execute silent (start samples)
      sampleHandshakes).any _ = true by decide +kernel)
  exact ⟨wire, run,
    (wire_handshake_terminates sampleCodec samples sample_speaks (by decide) run).1⟩

end Wire

end BitcoinPeers.Connection

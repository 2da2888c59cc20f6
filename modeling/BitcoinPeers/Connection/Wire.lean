import BitcoinPeers.Connection.Duplex
import BitcoinPeers.Transport.Arrival

/-!
Contract: two connections over v1 transports, joined by byte streams.

Owns:
- the system of two ends, each running `perform_handshake` and then reading and
  writing for its application, over `AsyncV1TransportReader::read` and
  `AsyncV1TransportWriter::write`;
- the steps the sockets choose: how many bytes of a `write_all` are taken at a
  time, and how many of those that have arrived an underlying read returns.

`encode::serialize` and `encode::deserialize` of rust-bitcoin are parameters. A
stream loses and reorders nothing; an end that has read everything waits.

Does not own: closed or failing sockets.
-/

namespace BitcoinPeers.Connection

open BitcoinPeers.Foundation BitcoinPeers.Transport

/-- The encoding both ends use, on one network. -/
structure Codec where
  serialize : Serialize
  deserialize : Deserialize
  magic : Magic

namespace Codec

/-- The data `AsyncV1TransportWriter::write` hands to `write_all`. -/
def encode (codec : Codec) (message : NetworkMessage) : List UInt8 :=
  codec.serialize ⟨codec.magic, message⟩

/-- The message is laid out as a frame and decodes to itself. -/
structure Sound (codec : Codec) (message : NetworkMessage) : Prop where
  laidOut : LaidOut codec.magic (codec.encode message)
  inverse : codec.deserialize (codec.encode message) = .ok ⟨codec.magic, message⟩

/-- The encodings of some messages, one after another. -/
def encodeAll (codec : Codec) (messages : List NetworkMessage) : List UInt8 :=
  (messages.map codec.encode).flatten

@[simp] theorem encodeAll_nil (codec : Codec) : codec.encodeAll [] = [] := rfl

@[simp] theorem encodeAll_cons (codec : Codec) (message : NetworkMessage)
    (rest : List NetworkMessage) :
    codec.encodeAll (message :: rest) = codec.encode message ++ codec.encodeAll rest := rfl

theorem encodeAll_concat (codec : Codec) (messages : List NetworkMessage)
    (message : NetworkMessage) :
    codec.encodeAll (messages ++ [message]) = codec.encodeAll messages ++ codec.encode message := by
  simp [encodeAll]

/-- A sound message at the front of a stream is its first frame. -/
theorem Sound.cutFrame {codec : Codec} {message : NetworkMessage} (sound : codec.Sound message)
    (rest : List UInt8) :
    cutFrame (codec.encode message ++ rest) = .ok (codec.encode message, rest) := by
  obtain ⟨whole, sized⟩ := sound.laidOut.frame
  exact cutFrame_frame whole sized rest

theorem Sound.decodeFrame {codec : Codec} {message : NetworkMessage}
    (sound : codec.Sound message) :
    decodeFrame codec.deserialize codec.magic (codec.encode message) = .ok message :=
  decodeFrame_own sound.inverse

end Codec

/-! ## The ends -/

/-- One end of a TCP connection. `consumed`, `written`, `posted` and `received`
are histories. -/
structure Node where
  call : Handshake
  receiveState : V1ReceiveState
  /-- The bytes sent to this end that no underlying read has returned. -/
  arriving : List UInt8
  /-- What is left of the `write_all` under way, if a write is. -/
  writing : Option (List UInt8)
  /-- Read by the handshake. -/
  consumed : List NetworkMessage
  /-- Written by the handshake. -/
  written : List NetworkMessage
  /-- Written by the application. -/
  posted : List NetworkMessage
  /-- The results of the application's reads. -/
  received : List (Except TransportError NetworkMessage)

/-- The bytes of the write under way that have not left. -/
def Node.unsent (node : Node) : List UInt8 := node.writing.getD []

/-- The whole connection. -/
abbrev Wire := Side → Node

namespace Wire

inductive Action where
  /-- The handshake of this end starts the write it is at. -/
  | act (side : Side)
  /-- The application of this end starts to write a message. -/
  | post (side : Side) (message : NetworkMessage)
  /-- The socket of this end takes up to `count + 1` bytes of the write. -/
  | push (side : Side) (count : Nat)
  /-- The write of this end returns. -/
  | finish (side : Side)
  /-- An underlying read of this end returns up to `extra + 1` bytes. -/
  | pull (side : Side) (extra : Nat)
deriving DecidableEq

/-- Replace one end. -/
def put (wire : Wire) (side : Side) (here : Node) : Wire :=
  fun place => if place = side then here else wire place

/-- Replace one end and pass bytes on to the other. -/
def pass (wire : Wire) (side : Side) (here : Node) (bytes : List UInt8) : Wire :=
  fun place =>
    if place = side then here
    else { wire place with arriving := (wire place).arriving ++ bytes }

variable (codec : Codec) (parties : Side → Party)

def start : Wire := fun side =>
  { call := performHandshake (parties side).nonce (parties side).unixTimestamp
      (.new (parties side).peer (parties side).configuration)
    receiveState := .fresh, arriving := [], writing := none
    consumed := [], written := [], posted := [], received := [] }

/-- The handshake after the write it waited for. -/
def resumed (nonce : UInt64) : Handshake → Handshake
  | .running (.ask _ (.write _) answered) => .resume nonce (answered (.ok ()))
  | call => call

def step (wire : Wire) : Action → Option Wire
  | .act side =>
      let here := wire side
      match here.writing, here.call with
      | none, .running (.ask _ (.write message) _) =>
          some (wire.put side
            { here with
              writing := some (codec.encode message), written := here.written ++ [message] })
      | none, .running (.done connection outcome) =>
          some (wire.put side
            { here with call := .resume (parties side).nonce (.done connection outcome) })
      | _, _ => none
  | .post side message =>
      let here := wire side
      match here.writing, here.call with
      | none, .returned _ (.ok ()) =>
          some (wire.put side
            { here with
              writing := some (codec.encode message), posted := here.posted ++ [message] })
      | _, _ => none
  | .push side count =>
      let here := wire side
      match here.writing with
      | some (byte :: rest) =>
          some (wire.pass side { here with writing := some ((byte :: rest).drop (count + 1)) }
            ((byte :: rest).take (count + 1)))
      | _ => none
  | .finish side =>
      let here := wire side
      match here.writing with
      | some [] =>
          some (wire.put side
            { here with writing := none, call := resumed (parties side).nonce here.call })
      | _ => none
  | .pull side extra =>
      let here := wire side
      let called := readMessage codec.deserialize codec.magic here.receiveState here.arriving
        [.ready extra]
      let moved := { here with receiveState := called.state, arriving := called.stream }
      if here.arriving = [] then none
      else
        match here.call, called.call with
        | .running (.ask _ .read answered), .finished result =>
            some (wire.put side
              { moved with
                call := .resume (parties side).nonce (answered result)
                consumed := here.consumed ++ result.toOption.toList })
        | .running (.ask _ .read _), _ => some (wire.put side moved)
        | .returned _ (.ok ()), .finished result =>
            some (wire.put side { moved with received := here.received ++ [result] })
        | .returned _ (.ok ()), _ => some (wire.put side moved)
        | _, _ => none

def machine : Machine Wire Action := ⟨step codec parties⟩

/-- The application writes messages that the codec carries. -/
def Carried (_ : Wire) : Action → Prop
  | .post _ message => codec.Sound message
  | _ => True

/-- The codec carries every message the two handshakes can write. -/
structure Speaks : Prop where
  greeting : ∀ side, codec.Sound (parties side).greeting
  feature : ∀ feature : Feature, codec.Sound feature.message
  verack : codec.Sound .verack

/-- The handshake of this end has returned `Ok` with the given connection. -/
def CompletedWith (wire : Wire) (side : Side) (connection : Connection) : Prop :=
  (wire side).call = .returned connection (.ok ())

def Completed (wire : Wire) (side : Side) : Prop :=
  ∃ connection, wire.CompletedWith side connection

section Ends

variable (wire : Wire) (side : Side) (here : Node) (bytes : List UInt8)

@[simp] theorem put_same : wire.put side here side = here := by
  simp [put]

@[simp] theorem put_other : wire.put side here side.other = wire side.other := by
  simp [put]

@[simp] theorem pass_same : wire.pass side here bytes side = here := by
  simp [pass]

@[simp] theorem pass_other : wire.pass side here bytes side.other =
    { wire side.other with arriving := (wire side.other).arriving ++ bytes } := by
  simp [pass]

end Ends

end Wire

/-! ## Inversion of the step function -/

/-- The end waits for a message: its handshake does, or its application. -/
def Node.Reads (node : Node) : Prop :=
  (∃ connection answered, node.call = .running (.ask connection .read answered)) ∨
    ∃ connection, node.call = .returned connection (.ok ())

namespace Wire

variable {codec : Codec} {parties : Side → Party} {wire : Wire}

/-- One underlying read of an end. -/
def called (codec : Codec) (node : Node) (extra : Nat) : Called :=
  readMessage codec.deserialize codec.magic node.receiveState node.arriving [.ready extra]

/-- An end after an underlying read. -/
def moved (codec : Codec) (node : Node) (extra : Nat) : Node :=
  { node with
    receiveState := (called codec node extra).state
    arriving := (called codec node extra).stream }

/-- The rules of the wire. -/
inductive Moves (codec : Codec) (parties : Side → Party) (wire : Wire) : Action → Wire → Prop where
  | write {side : Side} {connection : Connection} {message : NetworkMessage}
      {answered : Answer (.write message) →
        Process Connection Request Answer (Except ConnectionError HandshakeState)}
      (idle : (wire side).writing = none)
      (position : (wire side).call = .running (.ask connection (.write message) answered)) :
      Moves codec parties wire (.act side)
        (wire.put side
          { wire side with
            writing := some (codec.encode message)
            written := (wire side).written ++ [message] })
  | loopTest {side : Side} {connection : Connection}
      {outcome : Except ConnectionError HandshakeState} (idle : (wire side).writing = none)
      (position : (wire side).call = .running (.done connection outcome)) :
      Moves codec parties wire (.act side)
        (wire.put side
          { wire side with call := .resume (parties side).nonce (.done connection outcome) })
  | post {side : Side} {connection : Connection} {message : NetworkMessage}
      (idle : (wire side).writing = none)
      (position : (wire side).call = .returned connection (.ok ())) :
      Moves codec parties wire (.post side message)
        (wire.put side
          { wire side with
            writing := some (codec.encode message)
            posted := (wire side).posted ++ [message] })
  | push {side : Side} {count : Nat} {data : List UInt8}
      (under : (wire side).writing = some data) (some : data ≠ []) :
      Moves codec parties wire (.push side count)
        (wire.pass side { wire side with writing := .some (data.drop (count + 1)) }
          (data.take (count + 1)))
  | finish {side : Side} (under : (wire side).writing = some []) :
      Moves codec parties wire (.finish side)
        (wire.put side
          { wire side with
            writing := none, call := resumed (parties side).nonce (wire side).call })
  | wait {side : Side} {extra : Nat} (arrived : (wire side).arriving ≠ [])
      (reads : (wire side).Reads)
      (unfinished : ∀ result, (called codec (wire side) extra).call ≠ .finished result) :
      Moves codec parties wire (.pull side extra) (wire.put side (moved codec (wire side) extra))
  | read {side : Side} {extra : Nat} {connection : Connection}
      {answered : Answer .read →
        Process Connection Request Answer (Except ConnectionError HandshakeState)}
      {result : Except TransportError NetworkMessage} (arrived : (wire side).arriving ≠ [])
      (position : (wire side).call = .running (.ask connection .read answered))
      (finished : (called codec (wire side) extra).call = .finished result) :
      Moves codec parties wire (.pull side extra)
        (wire.put side
          { moved codec (wire side) extra with
            call := .resume (parties side).nonce (answered result)
            consumed := (wire side).consumed ++ result.toOption.toList })
  | take {side : Side} {extra : Nat} {connection : Connection}
      {result : Except TransportError NetworkMessage} (arrived : (wire side).arriving ≠ [])
      (position : (wire side).call = .returned connection (.ok ()))
      (finished : (called codec (wire side) extra).call = .finished result) :
      Moves codec parties wire (.pull side extra)
        (wire.put side
          { moved codec (wire side) extra with received := (wire side).received ++ [result] })

theorem moves_of_step {action : Action} {next : Wire}
    (stepped : (machine codec parties).step wire action = some next) :
    Moves codec parties wire action next := by
  change step codec parties wire action = some next at stepped
  cases action with
  | act side =>
      simp only [step] at stepped
      split at stepped
      next idle position => cases stepped; exact .write idle position
      next idle position => cases stepped; exact .loopTest idle position
      next => contradiction
  | post side message =>
      simp only [step] at stepped
      split at stepped
      next idle position => cases stepped; exact .post idle position
      next => contradiction
  | push side count =>
      simp only [step] at stepped
      split at stepped
      next byte rest under => cases stepped; exact .push under (List.cons_ne_nil _ _)
      next => contradiction
  | finish side =>
      simp only [step] at stepped
      split at stepped
      next under => cases stepped; exact .finish under
      next => contradiction
  | pull side extra =>
      simp only [step] at stepped
      split at stepped
      next => contradiction
      next arrived =>
        split at stepped
        next position finished => cases stepped; exact .read arrived position finished
        next position unfinished =>
          cases stepped
          exact .wait arrived (.inl ⟨_, _, position⟩) unfinished
        next position finished => cases stepped; exact .take arrived position finished
        next position unfinished =>
          cases stepped
          exact .wait arrived (.inr ⟨_, position⟩) unfinished
        next => contradiction

theorem step_of_moves {action : Action} {next : Wire}
    (moves : Moves codec parties wire action next) :
    (machine codec parties).step wire action = some next := by
  change step codec parties wire action = some next
  cases moves with
  | write idle position => simp [step, idle, position]
  | loopTest idle position => simp [step, idle, position]
  | post idle position => simp [step, idle, position]
  | push under some =>
      obtain ⟨byte, rest, rfl⟩ := List.exists_cons_of_ne_nil some
      simp [step, under]
  | finish under => simp [step, under]
  | read arrived position finished =>
      rw [called] at finished
      simp [step, arrived, position, finished, moved, called]
  | take arrived position finished =>
      rw [called] at finished
      simp [step, arrived, position, finished, moved, called]
  | wait arrived reads unfinished =>
      simp only [called] at unfinished
      rcases reads with ⟨connection, answered, position⟩ | ⟨connection, position⟩
      · simp [step, arrived, position, moved, called]
      · simp [step, arrived, position, moved, called]

end Wire

end BitcoinPeers.Connection

import BitcoinPeers.Connection.Message
import BitcoinPeers.Error
import BitcoinPeers.Foundation.Filling
import Mathlib.Data.List.GetD

/-!
Contract: the reading side of `connection/src/transport/v1.rs`.

Owns:
- the receive state of a reader, which cannot be built with a wrong buffer size
  or position;
- one call of `read` for any outcomes of the underlying reads, cancelled when
  they end while it waits;
- splitting a transport into its halves.

`encode::deserialize` of rust-bitcoin is a parameter. `usize` holds every `u32`.

Does not own: writing, or the v2 transport.
-/

namespace BitcoinPeers.Transport

open BitcoinPeers.Foundation

/-- The four bytes that open every message of a network. -/
structure Magic where
  bytes : List UInt8
  sized : bytes.length = 4
deriving DecidableEq

structure RawNetworkMessage where
  magic : Magic
  payload : NetworkMessage

/-- `encode::deserialize` to a `RawNetworkMessage`. -/
abbrev Deserialize := List UInt8 → Except EncodeError RawNetworkMessage

def HEADER_SIZE : Nat := 24
def PAYLOAD_LENGTH_OFFSET : Nat := 16

/-- The little-endian `u32` at the payload length offset. -/
def payloadLength (header : List UInt8) : Nat :=
  (header.getD PAYLOAD_LENGTH_OFFSET 0).toNat +
    2 ^ 8 * (header.getD (PAYLOAD_LENGTH_OFFSET + 1) 0).toNat +
    2 ^ 16 * (header.getD (PAYLOAD_LENGTH_OFFSET + 2) 0).toNat +
    2 ^ 24 * (header.getD (PAYLOAD_LENGTH_OFFSET + 3) 0).toNat

/-- The payload length depends on the header only. -/
theorem payloadLength_append {header : List UInt8} (whole : HEADER_SIZE ≤ header.length)
    (rest : List UInt8) : payloadLength (header ++ rest) = payloadLength header := by
  unfold HEADER_SIZE at whole
  unfold payloadLength PAYLOAD_LENGTH_OFFSET
  rw [List.getD_append _ _ _ _ (by omega), List.getD_append _ _ _ _ (by omega),
    List.getD_append _ _ _ _ (by omega), List.getD_append _ _ _ _ (by omega)]

/-- A buffer for a whole message, its header already in place. -/
structure PayloadBuffer where
  payloadLen : Nat
  buffer : Filling UInt8 (HEADER_SIZE + payloadLen)
  started : HEADER_SIZE ≤ buffer.filled
  declared : payloadLength buffer.held = payloadLen

inductive V1ReceiveState where
  | readingHeader (header : Filling UInt8 HEADER_SIZE)
  | readingPayload (payload : PayloadBuffer)

namespace V1ReceiveState

/-- `reading_header`. -/
def fresh : V1ReceiveState := .readingHeader (.empty 0 HEADER_SIZE)

/-- The bytes of the current message read so far. -/
def held : V1ReceiveState → List UInt8
  | .readingHeader header => header.held
  | .readingPayload payload => payload.buffer.held

end V1ReceiveState

/-- `reading_payload`: a buffer of the declared size that starts with the
header. -/
def PayloadBuffer.start (header : Filling UInt8 HEADER_SIZE) : PayloadBuffer where
  payloadLen := payloadLength header.elements
  buffer :=
    { elements := header.elements ++ List.replicate (payloadLength header.elements) 0
      filled := HEADER_SIZE
      sized := by rw [List.length_append, header.sized, List.length_replicate]
      bound := Nat.le_add_right _ _ }
  started := Nat.le_refl _
  declared := by
    exact congrArg payloadLength (List.take_left' header.sized)

theorem PayloadBuffer.held_start (header : Filling UInt8 HEADER_SIZE) :
    (PayloadBuffer.start header).buffer.held = header.elements := by
  exact List.take_left' header.sized

/-- The buffer after more reads. -/
def PayloadBuffer.extend (payload : PayloadBuffer) (stream : List UInt8)
    (outcomes : List (Filling.Outcome IoError)) : PayloadBuffer where
  payloadLen := payload.payloadLen
  buffer := (payload.buffer.fill stream outcomes).buffer
  started := by
    obtain ⟨more, longer⟩ := payload.buffer.fill_extends stream outcomes
    have length := congrArg List.length longer
    rw [List.length_append, Filling.held_length, Filling.held_length] at length
    have started := payload.started
    omega
  declared := by
    obtain ⟨more, longer⟩ := payload.buffer.fill_extends stream outcomes
    rw [longer, payloadLength_append]
    · exact payload.declared
    · rw [Filling.held_length]
      exact payload.started

/-! ## One call of `read` -/

/-- How a call of `read` ended. -/
inductive Call where
  /-- The caller dropped the call while it waited. -/
  | cancelled
  /-- An underlying read failed; the call returned its error. -/
  | interrupted (error : IoError)
  /-- The call returned a result of its own. -/
  | finished (result : Except TransportError NetworkMessage)

/-- A call together with what it leaves: the receive state and the unread
bytes. -/
structure Called where
  call : Call
  state : V1ReceiveState
  stream : List UInt8

/-- The error of a connection that closed inside a message. -/
def closedWhile (part : String) : TransportError :=
  .io ⟨.unexpectedEof, "connection closed while reading " ++ part⟩

section Read

variable (deserialize : Deserialize) (networkMagic : Magic)

/-- `read` from the payload on. -/
def readPayload (payload : PayloadBuffer) (stream : List UInt8)
    (outcomes : List (Filling.Outcome IoError)) : Called :=
  let filled := payload.buffer.fill stream outcomes
  let state := .readingPayload (payload.extend stream outcomes)
  match filled.stop with
  | .cancelled => ⟨.cancelled, state, filled.stream⟩
  | .failed error => ⟨.interrupted error, state, filled.stream⟩
  | .closed => ⟨.finished (.error (closedWhile "payload")), state, filled.stream⟩
  | .full =>
      match deserialize filled.buffer.elements with
      | .error error => ⟨.finished (.error (.deserialize error)), state, filled.stream⟩
      | .ok raw =>
          if raw.magic ≠ networkMagic then
            ⟨.finished (.error .magicMismatch), state, filled.stream⟩
          else ⟨.finished (.ok raw.payload), .fresh, filled.stream⟩

/-- `read` from the header on. -/
def readHeader (header : Filling UInt8 HEADER_SIZE) (stream : List UInt8)
    (outcomes : List (Filling.Outcome IoError)) : Called :=
  let filled := header.fill stream outcomes
  let state := .readingHeader filled.buffer
  match filled.stop with
  | .cancelled => ⟨.cancelled, state, filled.stream⟩
  | .failed error => ⟨.interrupted error, state, filled.stream⟩
  | .closed => ⟨.finished (.error (closedWhile "header")), state, filled.stream⟩
  | .full =>
      readPayload deserialize networkMagic (.start filled.buffer) filled.stream filled.outcomes

/-- The loop of `read`: it passes the header at most once and returns after the
payload. -/
def readMessage (state : V1ReceiveState) (stream : List UInt8)
    (outcomes : List (Filling.Outcome IoError)) : Called :=
  match state with
  | .readingHeader header => readHeader deserialize networkMagic header stream outcomes
  | .readingPayload payload => readPayload deserialize networkMagic payload stream outcomes

end Read

/-! ## The transport and its halves -/

structure AsyncV1TransportReader where
  networkMagic : Magic
  receiveState : V1ReceiveState

structure AsyncV1TransportWriter where
  networkMagic : Magic

structure AsyncV1Transport where
  writer : AsyncV1TransportWriter
  reader : AsyncV1TransportReader

def AsyncV1TransportReader.new (networkMagic : Magic) : AsyncV1TransportReader :=
  ⟨networkMagic, .fresh⟩

def AsyncV1Transport.new (networkMagic : Magic) : AsyncV1Transport :=
  ⟨⟨networkMagic⟩, .new networkMagic⟩

def AsyncV1Transport.intoSplit (transport : AsyncV1Transport) :
    AsyncV1TransportReader × AsyncV1TransportWriter :=
  (transport.reader, transport.writer)

/-- A transport in one piece or in its two halves. -/
inductive Halves where
  | joined (transport : AsyncV1Transport)
  | parted (reader : AsyncV1TransportReader) (writer : AsyncV1TransportWriter)

namespace Halves

def reader : Halves → AsyncV1TransportReader
  | .joined transport => transport.reader
  | .parted reader _ => reader

/-- Split a transport that is still in one piece. -/
def split : Halves → Halves
  | .joined transport => .parted transport.intoSplit.1 transport.intoSplit.2
  | .parted reader writer => .parted reader writer

/-- Put back a reader whose receive state a read has moved. -/
def keep (halves : Halves) (receiveState : V1ReceiveState) : Halves :=
  let reader := { halves.reader with receiveState := receiveState }
  match halves with
  | .joined transport => .joined { transport with reader := reader }
  | .parted _ writer => .parted reader writer

/-- `read` on the whole transport or on its reader half. -/
def read (deserialize : Deserialize) (halves : Halves) (stream : List UInt8)
    (outcomes : List (Filling.Outcome IoError)) : Called :=
  readMessage deserialize halves.reader.networkMagic halves.reader.receiveState stream outcomes

@[simp] theorem reader_split (halves : Halves) : halves.split.reader = halves.reader := by
  cases halves <;> rfl

@[simp] theorem reader_keep (halves : Halves) (receiveState : V1ReceiveState) :
    (halves.keep receiveState).reader = { halves.reader with receiveState := receiveState } := by
  cases halves <;> rfl

end Halves

end BitcoinPeers.Transport

import BitcoinPeers.Connection.Message
import BitcoinPeers.Error

/-!
Contract: `connection/src/transport/v2.rs`, the wrapper around a BIP-324 session.

Owns one call of `read` and one of `write`, for any outcome of the session: every
failure becomes `TransportError::Encryption`.

The session and `bip324::serde` are parameters: what `ProtocolReader::read` gives,
whether `ProtocolWriter::write` succeeds, and the contents of a packet for a
message. Does not own: encryption.
-/

namespace BitcoinPeers.Transport

/-- `bip324::serde`: the contents of a packet for a message and back. -/
structure Serde where
  serialize : NetworkMessage → List UInt8
  deserialize : List UInt8 → Option NetworkMessage

/-- The contents of the packets for some messages, as a session gives them. -/
def Serde.contents (serde : Serde) (messages : List NetworkMessage) : List (Option (List UInt8)) :=
  messages.map fun message => some (serde.serialize message)

/-- A transport over a session: what the next calls of `ProtocolReader::read` are
going to give, contents or a failure, and the packets written. -/
structure AsyncV2Transport where
  incoming : List (Option (List UInt8))
  sink : List (List UInt8)

/-- What `read` makes of what the session gives. -/
def AsyncV2Transport.message (serde : Serde) (packet : Option (List UInt8)) :
    Except TransportError NetworkMessage :=
  match packet with
  | none => .error .encryption
  | some contents =>
      match serde.deserialize contents with
      | none => .error .encryption
      | some message => .ok message

/-- `AsyncV2TransportReader::read`. It waits when the session has nothing. -/
def AsyncV2Transport.read (serde : Serde) (transport : AsyncV2Transport) :
    Option (Except TransportError NetworkMessage) × AsyncV2Transport :=
  match transport.incoming with
  | [] => (none, transport)
  | packet :: rest => (some (message serde packet), { transport with incoming := rest })

/-- `AsyncV2TransportWriter::write`. -/
def AsyncV2Transport.write (serde : Serde) (transport : AsyncV2Transport)
    (message : NetworkMessage) (written : Bool) : Except TransportError Unit × AsyncV2Transport :=
  let data := serde.serialize message
  if written then (.ok (), { transport with sink := transport.sink ++ [data] })
  else (.error .encryption, transport)

theorem AsyncV2Transport.map_message_contents {serde : Serde} {messages : List NetworkMessage}
    (inverse : ∀ message ∈ messages,
      serde.deserialize (serde.serialize message) = some message) :
    (serde.contents messages).map (message serde) = messages.map .ok := by
  rw [Serde.contents, List.map_map]
  apply List.map_congr_left
  intro sent member
  simp only [Function.comp_apply, message, inverse sent member]

end BitcoinPeers.Transport

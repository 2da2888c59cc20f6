import Mathlib.Init

/-!
Contract: the error values of `transport/mod.rs` and `connection/error.rs`.

Owns `TransportError` and `ConnectionError` with every variant of the source.
An I/O error is kept as its kind and message, an encoding error of rust-bitcoin
as its description; no modelled function looks inside either.
-/

namespace BitcoinPeers

/-- The kinds of `std::io::Error` the sources create or forward. -/
inductive IoErrorKind where
  | unexpectedEof
  | other (code : Nat)
deriving DecidableEq, Repr

structure IoError where
  kind : IoErrorKind
  message : String
deriving DecidableEq, Repr

/-- A rust-bitcoin decoding error. -/
structure EncodeError where
  description : String
deriving DecidableEq, Repr

inductive TransportError where
  | io (error : IoError)
  | deserialize (error : EncodeError)
  | magicMismatch
  | encryption
deriving DecidableEq, Repr

inductive ConnectionError where
  | io (error : IoError)
  | transportFailed (error : TransportError)
  | protocolFailed
  | unsupportedAddressType
  | connectionLoop
  | v2TransportRequired
deriving DecidableEq, Repr

end BitcoinPeers

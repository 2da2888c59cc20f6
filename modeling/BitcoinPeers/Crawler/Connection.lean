import BitcoinPeers.Connection.Tcp
import BitcoinPeers.Crawler.Session

/-!
Contract: `crawler/src/connection.rs`, the connections a crawl makes.

Owns:
- `get_peers` for any outcomes of its reads and writes, with the messages it
  writes;
- `PeerConnector` as a `Connector` of the session, for any behaviour of the
  network.

`Address::socket_addr` of rust-bitcoin is a parameter. The clock of `get_peers`
is read once in each iteration, at the loop test.

Does not own: the session that uses the connections.
-/

namespace BitcoinPeers.Crawler

/-- The outcome of `timeout(_, self.read())`. -/
inductive ReadOutcome where
  | message (message : NetworkMessage)
  | failed (error : ConnectionError)
  | idle

/-- One iteration of the loop of `get_peers`: the time at its test, what the
read gives, and what a write gives if the iteration makes one. -/
structure Tick where
  elapsed : Nat
  read : ReadOutcome
  write : Except ConnectionError Unit

/-- What one `get_peers` exchange meets. The overall deadline has passed when
the ticks end. -/
structure Exchange where
  getAddr : Except ConnectionError Unit
  ticks : List Tick

section GetPeers

variable (socketAddr : Address → Option SocketAddr)

/-- The peers of an `addr` message; entries without a socket address are
skipped. -/
def addrPeers (addresses : List (UInt32 × Address)) : List Peer :=
  addresses.filterMap fun entry =>
    match socketAddr entry.2 with
    | some (.v4 ipv4 port) => some (.withServices (.ipv4 ipv4) port entry.2.services)
    | some (.v6 ipv6 port) => some (.withServices (.ipv6 ipv6) port entry.2.services)
    | none => none

/-- The peers of an `addrv2` message. -/
def addrV2Peers (addresses : List AddrV2Message) : List Peer :=
  addresses.map fun entry => .withServices entry.addr entry.port entry.services

/-- The loop of `get_peers`, with the messages written so far. -/
def getPeersLoop (peerTimeout : Nat) (allPeers : List Peer) (written : List NetworkMessage) :
    List Tick → List NetworkMessage × Except ConnectionError (List Peer)
  | [] => (written, .ok allPeers)
  | tick :: rest =>
      if tick.elapsed < peerTimeout then
        match tick.read with
        | .failed error => (written, .error error)
        | .idle =>
            if allPeers ≠ [] then (written, .ok allPeers)
            else getPeersLoop peerTimeout allPeers written rest
        | .message (.addr addresses) =>
            getPeersLoop peerTimeout (allPeers ++ addrPeers socketAddr addresses) written rest
        | .message (.addrV2 addresses) =>
            getPeersLoop peerTimeout (allPeers ++ addrV2Peers addresses) written rest
        | .message (.ping nonce) =>
            match tick.write with
            | .ok () => getPeersLoop peerTimeout allPeers (written ++ [.pong nonce]) rest
            | .error error => (written ++ [.pong nonce], .error error)
        | .message _ => getPeersLoop peerTimeout allPeers written rest
      else (written, .ok allPeers)

/-- `get_peers`: the messages written and the result. -/
def getPeers (exchange : Exchange) (peerTimeout : Nat) :
    List NetworkMessage × Except ConnectionError (List Peer) :=
  match exchange.getAddr with
  | .error error => ([.getAddr], .error error)
  | .ok () => getPeersLoop socketAddr peerTimeout [] [.getAddr] exchange.ticks

end GetPeers

/-- The standard connector. -/
structure PeerConnector where
  config : ConnectionConfiguration

/-- How the network behaves towards one connection. -/
structure Behaviour where
  link : Connection.Link
  exchange : Exchange

/-- `PeerConnector::connect` under the session's timeout. -/
def PeerConnector.connect (connector : PeerConnector) (socketAddr : Address → Option SocketAddr)
    (network : (peerTimeout : Nat) → Peer → Behaviour) : Connector :=
  fun peerTimeout peer =>
    let behaviour := network peerTimeout peer
    match (Connection.connect behaviour.link peer connector.config).run with
    | none => .timedOut
    | some (.error error) => .refused error
    | some (.ok connection) =>
        .connected
          { peer := connection.peer
            getPeers := fun timeout => (getPeers socketAddr behaviour.exchange timeout).2 }

/-- A connected peer has the address and port that were dialled. -/
theorem PeerConnector.connect_endpoint {connector : PeerConnector}
    {socketAddr : Address → Option SocketAddr}
    {network : (peerTimeout : Nat) → Peer → Behaviour} {peerTimeout : Nat} {peer : Peer}
    {connection : PeerConnection}
    (connected : connector.connect socketAddr network peerTimeout peer = .connected connection) :
    connection.peer.endpoint = peer.endpoint := by
  unfold PeerConnector.connect at connected
  simp only at connected
  split at connected
  next => cases connected
  next => cases connected
  next made attempt =>
    cases connected
    exact Connection.endpoint_of_connect attempt

end BitcoinPeers.Crawler

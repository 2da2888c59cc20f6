import BitcoinPeers.Connection.Outbound
import BitcoinPeers.Crawler.Delivery

/-!
Contract: what stands behind a message of a crawl.

Owns the reading of each message by the attempt that it reports: a peer is
listening when a handshake with it completed, and then the message carries what
that handshake recorded; it is not listening when the attempt failed or did not
end in time, and then the message carries the peer as it was dialled.

Does not own: which peers are dialled.
-/

namespace BitcoinPeers.Crawler

open BitcoinPeers.Foundation BitcoinPeers.Connection

/-- The attempt a message reports. -/
inductive Evidence (link : Link) (peer : Peer) (configuration : ConnectionConfiguration) :
    CrawlerMessage → Prop where
  | listening {kind : TransportKind} {events : List Event}
      (dialled : Dialled link.dial peer configuration.transportPolicy (.ok kind))
      (allowed : configuration.transportPolicy = .v2Required → kind = .v2)
      (done : events = ((link.party peer configuration).start.events
        (link.party peer configuration).nonce link.responses).1)
      (smooth : ∀ event ∈ events, event.failure = none)
      (exchanged : Exchanged (consumed events))
      (other : ¬ Loops (link.party peer configuration).nonce (consumed events))
      (answered : handed events = (link.party peer configuration).greeting ::
        (link.party peer configuration).due (consumed events)) :
      Evidence link peer configuration (.listening (peerSummary peer (consumed events)))
  | undialled {error : ConnectionError}
      (dialled : Dialled link.dial peer configuration.transportPolicy (.error error)) :
      Evidence link peer configuration (.nonListening peer)
  | failed {kind : TransportKind} {error : ConnectionError}
      (dialled : Dialled link.dial peer configuration.transportPolicy (.ok kind))
      (report : Report (link.party peer configuration)
        ((link.party peer configuration).start.events (link.party peer configuration).nonce
          link.responses).1 (some (.error error))) :
      Evidence link peer configuration (.nonListening peer)
  | silent (waiting : (connect link peer configuration).run = none) :
      Evidence link peer configuration (.nonListening peer)

/-- The message of the standard connector has its evidence. -/
theorem evidence_report {session : Session} {connector : PeerConnector}
    {socketAddr : Address → Option SocketAddr}
    {network : (peerTimeout : Nat) → Peer → Behaviour}
    (standard : session.connector = connector.connect socketAddr network) (peer : Peer) :
    Evidence (network session.config.peerTimeout peer).link peer connector.config
      (session.report peer) := by
  rw [Session.report, standard, PeerConnector.connect]
  cases attempt : (connect (network session.config.peerTimeout peer).link peer
      connector.config).run with
  | none => exact .silent attempt
  | some result =>
      have attempted := attempted_of_connect attempt
      cases result with
      | error error =>
          cases attempted with
          | undialled dialled => exact .undialled dialled
          | handshaken dialled allowed report => exact .failed dialled report
      | ok connection =>
          cases attempted with
          | handshaken dialled allowed report =>
              obtain ⟨smooth, exchanged, other, answered, same⟩ := report.ok connection rfl
              dsimp only
              rw [same]
              exact .listening dialled allowed rfl smooth exchanged other answered

/-- Every message the caller of a crawl receives, on any network and schedule, is
about a peer that gossip brought into the crawl, and reports the attempt that was
made on that peer. -/
theorem received_reports_evidenced (session : Session) (connector : PeerConnector)
    (socketAddr : Address → Option SocketAddr)
    (network : (peerTimeout : Nat) → Peer → Behaviour)
    (standard : session.connector = connector.connect socketAddr network) (seed : Peer)
    {actions : List Action} {state : State}
    (run : (machine session).Run Machine.Always (coordinate session.config seed) actions state)
    {message : CrawlerMessage}
    (received : message ∈ receipts session (coordinate session.config seed) actions) :
    ∃ peer ∈ state.spawned, Gossip session seed peer ∧
      message.peer.endpoint = peer.endpoint ∧
      Evidence (network session.config.peerTimeout peer).link peer connector.config message := by
  have logged := (delivered_run run).taken.subset received
  obtain ⟨⟨index, sent⟩, member, rfl⟩ := List.mem_map.mp logged
  obtain ⟨task, found, reported, -⟩ := log_entry run member
  have spawned : task.peer ∈ state.spawned := List.mem_map_of_mem (List.mem_of_getElem? found)
  change sent = session.report task.peer at reported
  refine ⟨task.peer, spawned, gossip_spawned run spawned, ?_, ?_⟩
  · rw [reported]
    exact report_endpoint standard task.peer
  · rw [reported]
    exact evidence_report standard task.peer

/-- The seed is processed up to its report, which the caller takes. -/
def evidenceSchedule : List Action :=
  List.replicate 4 .coordinator ++ List.replicate 2 (.task 0) ++ [.receive]

theorem received_reports_evidenced_seed :
    Evidence (echoNetwork 20000000000 echoSeed).link echoSeed
      (.nonListening .unknown .v2Preferred {} none)
      (.listening ⟨.ipv4 1, 8333, .known ServiceFlags.NETWORK, .known 70001⟩) := by
  obtain ⟨state, run, alone⟩ := Machine.exists_run_of_execute (fun _ _ => true)
    (fun state : State => decide (state.spawned = [echoSeed])) (fun _ _ _ => trivial)
    (show ((machine echoSession).execute (fun _ _ => true)
      (coordinate echoSession.config echoSeed) evidenceSchedule).any _ = true by decide)
  obtain ⟨peer, spawned, -, -, evidence⟩ := received_reports_evidenced echoSession
    ⟨.nonListening .unknown .v2Preferred {} none⟩ (fun _ => none) echoNetwork rfl echoSeed run
    (show .listening ⟨.ipv4 1, 8333, .known ServiceFlags.NETWORK, .known 70001⟩ ∈
      receipts echoSession (coordinate echoSession.config echoSeed) evidenceSchedule by decide)
  rw [of_decide_eq_true alone, List.mem_singleton] at spawned
  rw [spawned] at evidence
  exact evidence

end BitcoinPeers.Crawler

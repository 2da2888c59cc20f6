import BitcoinPeers.Crawler.Reporting

/-!
Contract: how often a crawl processes and reports one network endpoint.

Owns the condition under which an endpoint is processed at most once: among the
seed and all peers that gossip can bring into the crawl, no two different values
share an endpoint. The tested set compares whole `Peer` values, so gossip that
attaches other services to an endpoint, or that names the seed, breaks it.

Does not own: that no weaker condition is enough; `Duplicates` has that.
-/

namespace BitcoinPeers.Crawler

open BitcoinPeers.Foundation

/-- The peers that can enter a crawl: the seed, and what a connected peer of
this kind answers to `get_peers`. -/
inductive Gossip (session : Session) (seed : Peer) : Peer → Prop where
  | start : Gossip session seed seed
  | heard {peer other : Peer} {connection : PeerConnection} {discovered : List Peer}
      (known : Gossip session seed peer)
      (connected : session.connector session.config.peerTimeout peer = .connected connection)
      (answer : connection.getPeers session.config.peerTimeout = .ok discovered)
      (member : other ∈ discovered) : Gossip session seed other

theorem inherited_gossip (session : Session) (seed : Peer) :
    Inherited session (Gossip session seed) := by
  intro peer known connection discovered connected answer other member
  exact .heard known connected answer member

/-- Gossip never brings two values of one endpoint into the crawl. -/
def ConsistentGossip (session : Session) (seed : Peer) : Prop :=
  ∀ peer other, Gossip session seed peer → Gossip session seed other →
    peer.endpoint = other.endpoint → peer = other

/-! ## Spawned endpoints -/

theorem gossip_spawned {session : Session} {Allowed : State → Action → Prop} {seed : Peer}
    {actions : List Action} {state : State}
    (run : (machine session).Run Allowed (coordinate session.config seed) actions state)
    {peer : Peer} (member : peer ∈ state.spawned) : Gossip session seed peer := by
  obtain ⟨task, inTasks, rfl⟩ := List.mem_map.mp member
  exact ((sourced_run (inherited_gossip session seed) .start run).tasks task inTasks).1

theorem nodup_spawned {session : Session} {Allowed : State → Action → Prop} {seed : Peer}
    {actions : List Action} {state : State}
    (run : (machine session).Run Allowed (coordinate session.config seed) actions state) :
    state.spawned.Nodup := by
  rw [(history_run run).spawned]
  exact nodup_eraseDups _

/-! ## Reported endpoints -/

theorem mem_messagesOf {state : State} {index : Nat} {message : CrawlerMessage} :
    message ∈ state.messagesOf index ↔ (index, message) ∈ state.log := by
  rw [State.messagesOf, List.mem_filterMap]
  constructor
  · rintro ⟨⟨place, found⟩, inLog, kept⟩
    by_cases same : place = index
    · rw [if_pos same] at kept
      cases kept
      rw [← same]
      exact inLog
    · rw [if_neg same] at kept
      cases kept
  · intro inLog
    exact ⟨(index, message), inLog, if_pos rfl⟩

/-- Every entry of the log is the one message of its task. -/
theorem log_entry {session : Session} {Allowed : State → Action → Prop} {seed : Peer}
    {actions : List Action} {state : State}
    (run : (machine session).Run Allowed (coordinate session.config seed) actions state)
    {index : Nat} {message : CrawlerMessage} (member : (index, message) ∈ state.log) :
    ∃ task, state.tasks[index]? = some task ∧ message = session.report task.peer ∧
      state.messagesOf index = [message] := by
  have reported := reported_run run
  have sent : message ∈ state.messagesOf index := mem_messagesOf.mpr member
  have inBounds : index < state.tasks.length := by
    by_contra beyond
    rw [reported.unspawned index (by omega)] at sent
    cases sent
  obtain ⟨task, found⟩ : ∃ task, state.tasks[index]? = some task :=
    ⟨_, List.getElem?_eq_getElem inBounds⟩
  refine ⟨task, found, ?_⟩
  rcases reported.messages index task found with once | ⟨-, none⟩
  · by_cases past : task.phase.reported = true
    · rw [if_pos past] at once
      rw [once, List.mem_singleton] at sent
      exact ⟨sent, by rw [once, sent]⟩
    · rw [if_neg past] at once
      rw [once] at sent
      cases sent
  · rw [none] at sent
    cases sent

/-- A task occurs in the log as often as it has messages there. -/
theorem count_log_indices (log : List (Nat × CrawlerMessage)) (index : Nat) :
    (log.map Prod.fst).count index =
      (log.filterMap fun entry => if entry.1 = index then some entry.2 else none).length := by
  induction log with
  | nil => rfl
  | cons entry rest inductionHypothesis =>
      rw [List.map_cons, List.count_cons, List.filterMap_cons, inductionHypothesis]
      by_cases same : entry.1 = index
      · simp [same]
      · simp [same]

theorem messagesOf_length {session : Session} {Allowed : State → Action → Prop} {seed : Peer}
    {actions : List Action} {state : State}
    (run : (machine session).Run Allowed (coordinate session.config seed) actions state)
    (index : Nat) : (state.messagesOf index).length ≤ 1 := by
  cases messages : state.messagesOf index with
  | nil => simp
  | cons message rest =>
      have member : (index, message) ∈ state.log := by
        rw [← mem_messagesOf, messages]
        exact List.mem_cons_self
      obtain ⟨-, -, -, once⟩ := log_entry run member
      rw [messages] at once
      rw [once]
      rfl

/-- With consistent gossip, two messages about one endpoint are the same message
of the same task. -/
theorem reported_same {session : Session} {connector : PeerConnector}
    {socketAddr : Address → Option SocketAddr}
    {network : (peerTimeout : Nat) → Peer → Behaviour}
    (standard : session.connector = connector.connect socketAddr network) {seed : Peer}
    (consistent : ConsistentGossip session seed) {Allowed : State → Action → Prop}
    {actions : List Action} {state : State}
    (run : (machine session).Run Allowed (coordinate session.config seed) actions state)
    {left right : Nat} {first second : CrawlerMessage}
    (here : (left, first) ∈ state.log) (there : (right, second) ∈ state.log)
    (same : first.peer.endpoint = second.peer.endpoint) : left = right ∧ first = second := by
  obtain ⟨task, found, rfl, -⟩ := log_entry run here
  obtain ⟨other, foundOther, rfl, -⟩ := log_entry run there
  rw [report_endpoint standard, report_endpoint standard] at same
  have spawned : task.peer ∈ state.spawned :=
    List.mem_map_of_mem (List.mem_of_getElem? found)
  have spawnedOther : other.peer ∈ state.spawned :=
    List.mem_map_of_mem (List.mem_of_getElem? foundOther)
  have equal := consistent _ _ (gossip_spawned run spawned) (gossip_spawned run spawnedOther) same
  refine ⟨?_, by rw [equal]⟩
  have leftAt : state.spawned[left]? = some task.peer := by
    rw [State.spawned, List.getElem?_map, found]
    rfl
  have rightAt : state.spawned[right]? = some task.peer := by
    rw [State.spawned, List.getElem?_map, foundOther, equal]
    rfl
  obtain ⟨leftBound, leftHere⟩ := List.getElem?_eq_some_iff.mp leftAt
  obtain ⟨rightBound, rightHere⟩ := List.getElem?_eq_some_iff.mp rightAt
  exact (nodup_spawned run).getElem_inj_iff.mp (leftHere.trans rightHere.symm)

/-- With consistent gossip and the standard connector, a crawl processes each
endpoint at most once and puts at most one message about it on the channel; so
no endpoint is reported both listening and not listening. -/
theorem endpoint_processed_once (session : Session) (connector : PeerConnector)
    (socketAddr : Address → Option SocketAddr)
    (network : (peerTimeout : Nat) → Peer → Behaviour)
    (standard : session.connector = connector.connect socketAddr network) (seed : Peer)
    (consistent : ConsistentGossip session seed) {actions : List Action} {state : State}
    (run : (machine session).Run Machine.Always (coordinate session.config seed)
      actions state) :
    (state.spawned.map Peer.endpoint).Nodup ∧
      (state.log.map fun entry => entry.2.peer.endpoint).Nodup ∧
      ∀ peer other, .listening peer ∈ state.log.map Prod.snd →
        .nonListening other ∈ state.log.map Prod.snd → peer.endpoint ≠ other.endpoint := by
  refine ⟨?_, ?_, fun peer other listening nonListening same => ?_⟩
  · apply List.Nodup.map_on _ (nodup_spawned run)
    intro peer member other otherMember same
    exact consistent peer other (gossip_spawned run member) (gossip_spawned run otherMember) same
  · have indices : state.log.Pairwise fun first second => first.1 ≠ second.1 := by
      apply List.pairwise_map.mp
      apply List.nodup_iff_count_le_one.mpr
      intro index
      rw [count_log_indices]
      exact messagesOf_length run index
    apply List.pairwise_map.mpr
    apply indices.imp_of_mem
    intro first second here there apart same
    exact apart (reported_same standard consistent run here there same).1
  · obtain ⟨⟨left, first⟩, here, rfl⟩ := List.mem_map.mp listening
    obtain ⟨⟨right, second⟩, there, kind⟩ := List.mem_map.mp nonListening
    change second = .nonListening other at kind
    subst kind
    cases (reported_same standard consistent run here there same).2

/-! ## Two networks -/

def leafPeer : Peer := .withServices (.ipv4 2) 8333 ServiceFlags.NETWORK

/-- The seed gossips one peer, which does not answer. -/
def leafNetwork (_ : Nat) (peer : Peer) : Behaviour :=
  if peer = echoSeed then listener [⟨0, ServiceFlags.NETWORK, .ipv4 2, 8333⟩] else absent

def leafSession : Session where
  config := { maxConcurrentTasks := 1, peerTimeout := 20000000000 }
  connector := PeerConnector.connect ⟨.nonListening .unknown .v2Preferred {} none⟩
    (fun _ => none) leafNetwork

theorem gossip_leaf {peer : Peer} (known : Gossip leafSession echoSeed peer) :
    peer = echoSeed ∨ peer = leafPeer := by
  induction known with
  | start => exact .inl rfl
  | @heard peer other connection discovered _ connected answer member inductionHypothesis =>
      rcases inductionHypothesis with rfl | rfl
      · cases connected
        cases answer
        exact .inr (List.mem_singleton.mp member)
      · cases connected

theorem consistentGossip_leaf : ConsistentGossip leafSession echoSeed := by
  intro peer other known otherKnown same
  rcases gossip_leaf known with rfl | rfl <;> rcases gossip_leaf otherKnown with rfl | rfl
  · rfl
  · cases same
  · cases same
  · rfl

end BitcoinPeers.Crawler

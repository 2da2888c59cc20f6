import BitcoinPeers.Connection.UserAgent
import BitcoinPeers.Crawler.Endpoints
import BitcoinPeers.Crawler.Termination

/-!
Contract: `crawler/src/builder.rs` and `crawler/src/crawler.rs`, from a
configuration to a running crawl.

Owns:
- the builder, its setters and the configurations they reach;
- `Crawler::crawl`, which starts the session in a task of its own;
- the end of the crawl channel, and when it can come before a message about the
  seed.

`mpsc::channel` of tokio panics for a capacity of zero; the largest capacity it
takes is a parameter. The bitcoin network is only handed on to the connector,
whose connections are inputs here.

Does not own: the session that runs.
-/

namespace BitcoinPeers

/-- A crawler with the options of its builder. -/
structure Crawler where
  userAgent : Option UserAgent
  transportPolicy : TransportPolicy
  protocolVersion : PeerProtocolVersion
  maxConcurrentTasks : USize
  peerTimeout : Nat

namespace Crawler

open BitcoinPeers.Foundation

/-! ## The builder -/

inductive CrawlerBuilderError where
  | invalidUserAgent (error : UserAgentError)
deriving DecidableEq, Repr

def DEFAULT_PROTOCOL_VERSION : PeerProtocolVersion := .known 70016
def DEFAULT_MAX_CONCURRENT_TASKS : USize := 8
/-- Twenty seconds, in nanoseconds. -/
def DEFAULT_PEER_TIMEOUT : Nat := 20000000000

structure CrawlerBuilder where
  userAgent : Option UserAgent
  transportPolicy : TransportPolicy
  protocolVersion : PeerProtocolVersion
  maxConcurrentTasks : USize
  peerTimeout : Nat

namespace CrawlerBuilder

def new : CrawlerBuilder where
  userAgent := none
  transportPolicy := .v2Preferred
  protocolVersion := DEFAULT_PROTOCOL_VERSION
  maxConcurrentTasks := DEFAULT_MAX_CONCURRENT_TASKS
  peerTimeout := DEFAULT_PEER_TIMEOUT

/-- The only setter that validates its argument. -/
def withUserAgent (builder : CrawlerBuilder) (userAgent : String) :
    Except CrawlerBuilderError CrawlerBuilder :=
  match UserAgent.new userAgent with
  | .error error => .error (.invalidUserAgent error)
  | .ok agent => .ok { builder with userAgent := some agent }

def withTransportPolicy (builder : CrawlerBuilder) (policy : TransportPolicy) : CrawlerBuilder :=
  { builder with transportPolicy := policy }

def withProtocolVersion (builder : CrawlerBuilder) (version : UInt32) : CrawlerBuilder :=
  { builder with protocolVersion := .known version }

def withMaxConcurrentTasks (builder : CrawlerBuilder) (maxTasks : USize) : CrawlerBuilder :=
  { builder with maxConcurrentTasks := maxTasks }

def withPeerTimeout (builder : CrawlerBuilder) (timeout : Nat) : CrawlerBuilder :=
  { builder with peerTimeout := timeout }

def build (builder : CrawlerBuilder) : Crawler where
  userAgent := builder.userAgent
  transportPolicy := builder.transportPolicy
  protocolVersion := builder.protocolVersion
  maxConcurrentTasks := builder.maxConcurrentTasks
  peerTimeout := builder.peerTimeout

/-- The configurations a caller can reach. -/
inductive Configured : CrawlerBuilder → Prop where
  | new : Configured .new
  | withUserAgent {builder next : CrawlerBuilder} {userAgent : String}
      (configured : Configured builder) (accepted : builder.withUserAgent userAgent = .ok next) :
      Configured next
  | withTransportPolicy {builder : CrawlerBuilder} (configured : Configured builder)
      (policy : TransportPolicy) : Configured (builder.withTransportPolicy policy)
  | withProtocolVersion {builder : CrawlerBuilder} (configured : Configured builder)
      (version : UInt32) : Configured (builder.withProtocolVersion version)
  | withMaxConcurrentTasks {builder : CrawlerBuilder} (configured : Configured builder)
      (maxTasks : USize) : Configured (builder.withMaxConcurrentTasks maxTasks)
  | withPeerTimeout {builder : CrawlerBuilder} (configured : Configured builder)
      (timeout : Nat) : Configured (builder.withPeerTimeout timeout)

theorem withUserAgent_ok {builder next : CrawlerBuilder} {userAgent : String}
    (accepted : builder.withUserAgent userAgent = .ok next) :
    ∃ agent, agent.Valid ∧ next = { builder with userAgent := some agent } := by
  unfold withUserAgent at accepted
  split at accepted
  next => cases accepted
  next agent built =>
    cases accepted
    exact ⟨agent, UserAgent.valid_of_new built, rfl⟩

/-- A caller reaches every configuration with a known protocol version and no
invalid user agent: nothing else is checked. -/
theorem configured_iff (builder : CrawlerBuilder) :
    builder.Configured ↔
      (∀ agent, builder.userAgent = some agent → agent.Valid) ∧
        ∃ version, builder.protocolVersion = .known version := by
  constructor
  · intro configured
    induction configured with
    | new => exact ⟨fun agent unset => (by cases unset), _, rfl⟩
    | withUserAgent _ accepted inductionHypothesis =>
        obtain ⟨agent, valid, rfl⟩ := withUserAgent_ok accepted
        refine ⟨fun other stored => ?_, inductionHypothesis.2⟩
        cases stored
        exact valid
    | withTransportPolicy _ policy inductionHypothesis => exact inductionHypothesis
    | withProtocolVersion _ version inductionHypothesis =>
        exact ⟨inductionHypothesis.1, version, rfl⟩
    | withMaxConcurrentTasks _ maxTasks inductionHypothesis => exact inductionHypothesis
    | withPeerTimeout _ timeout inductionHypothesis => exact inductionHypothesis
  · obtain ⟨userAgent, transportPolicy, protocolVersion, maxConcurrentTasks, peerTimeout⟩ := builder
    rintro ⟨valid, version, rfl⟩
    have plain : Configured
        ⟨none, transportPolicy, .known version, maxConcurrentTasks, peerTimeout⟩ :=
      (((Configured.new.withTransportPolicy transportPolicy).withProtocolVersion
        version).withMaxConcurrentTasks maxConcurrentTasks).withPeerTimeout peerTimeout
    cases userAgent with
    | none => exact plain
    | some agent =>
        apply plain.withUserAgent
        rw [withUserAgent, show UserAgent.new agent.asStr = .ok agent from valid agent rfl]

end CrawlerBuilder

/-! ## Starting a crawl -/

/-- A session whose completion channel could not be created: `coordinate()` has
panicked in its own task, and the caller holds the receiver. -/
def panickedStart : State where
  coordinator := .exited .panicked
  activeTasks := 0
  testedPeers := ∅
  tasks := []
  peerDiscovery := []
  taskDone := []
  crawl := []
  crawlOpen := true
  sent := []
  taken := []
  log := []

/-- `coordinate(seed)` up to its loop, where `mpsc::channel` panics for zero and
for capacities above a largest one. -/
def coordinateWithin (maxCapacity : Nat) (config : SessionConfig) (seed : Peer) : State :=
  if config.maxConcurrentTasks ≤ maxCapacity then coordinate config seed else panickedStart

/-- A crawl as its caller gets it: the session, and where its task starts. -/
structure Crawl where
  session : Session
  start : State

def sessionConfig (crawler : Crawler) : SessionConfig where
  maxConcurrentTasks := crawler.maxConcurrentTasks.toNat
  peerTimeout := crawler.peerTimeout

/-- `Crawler::crawl`. The session runs in a task of its own, so the caller gets
the receiver whatever becomes of it. -/
def crawl (crawler : Crawler) (maxCapacity : Nat) (socketAddr : Address → Option SocketAddr)
    (network : (peerTimeout : Nat) → Peer → Behaviour) (seed : Peer) :
    Except ConnectionError Crawl :=
  let connectionConfig := ConnectionConfiguration.nonListening crawler.protocolVersion
    crawler.transportPolicy {} crawler.userAgent
  let connector : PeerConnector := ⟨connectionConfig⟩
  let session : Session := ⟨crawler.sessionConfig, connector.connect socketAddr network⟩
  .ok ⟨session, coordinateWithin maxCapacity session.config seed⟩

/-! ## The end of the crawl channel -/

/-- The message is about the seed. -/
def CrawlerMessage.About (seed : Peer) : CrawlerMessage → Prop
  | .listening peer => peer.address = seed.address ∧ peer.port = seed.port
  | .nonListening peer => peer = seed

/-- The crawl channel has carried a message about the seed. -/
def State.Carried (state : State) (seed : Peer) : Prop :=
  ∃ index message, (index, message) ∈ state.log ∧ message.About seed

/-- Every sender of the crawl channel is dropped: `coordinate()` and each task it
spawned hold one until they end. -/
def State.SendersGone (state : State) : Prop :=
  state.coordinator.isExited = true ∧ state.runningTasks = 0

/-- `coordinate()` has panicked, or its next step does: it counts down from zero
or up from `usize::MAX`. -/
def State.CoordinatorPanics (config : SessionConfig) (state : State) : Prop :=
  state.coordinator = .exited .panicked ∨
    (Decrements config state ∧ state.activeTasks = 0) ∨
    ∃ peer rest, state.coordinator = .capacity peer rest ∧
      state.activeTasks < config.maxConcurrentTasks ∧ USize.size ≤ state.activeTasks + 1

/-- While the caller keeps the receiver, the channel does not end before it has
carried a message about the seed, and until then the coordinator does not
panic. -/
def Crawl.ReportsSeed (crawl : Crawl) (seed : Peer) : Prop :=
  ∀ actions state, (machine crawl.session).Run KeepsReceiver crawl.start actions state →
    ¬ state.Carried seed →
    ¬ state.SendersGone ∧ ¬ state.CoordinatorPanics crawl.session.config

/-! ## The seed in a running session -/

/-- The seed was sent first, and an exhausted session has spawned a task. -/
structure Primed (seed : Peer) (state : State) : Prop where
  first : ∃ later, state.sent = [seed] :: later
  counted : state.activeTasks ≤ state.tasks.length
  exhausted : state.coordinator = .exited .exhausted → state.tasks ≠ []

theorem primed_coordinate {config : SessionConfig} (seed : Peer)
    (capacity : 1 ≤ config.maxConcurrentTasks) : Primed seed (coordinate config seed) := by
  have positive : config.maxConcurrentTasks ≠ 0 := by omega
  simp only [coordinate, positive, if_false]
  exact ⟨⟨[], rfl⟩, Nat.zero_le _, fun exited => (by cases exited)⟩

theorem primed_coordinatorStep {config : SessionConfig} {seed : Peer} {state next : State}
    (rule : CoordinatorStep config state next) (accounting : Accounting config state)
    (primed : Primed seed state) : Primed seed next := by
  have counted := primed.counted
  cases rule with
  | exhaust result rest position queued last =>
      have positive := accounting.activeTasks_pos ⟨by simp [queued], .inl position⟩
      refine ⟨primed.first, (by simp only; omega), fun _ => ?_⟩
      exact List.ne_nil_of_length_pos (Nat.lt_of_lt_of_le positive counted)
  | complete result rest position queued more =>
      exact ⟨primed.first, (by simp only; omega), fun exited => (by cases exited)⟩
  | reap peer rest result done position atCapacity queued =>
      refine ⟨primed.first, (by simp only; omega), fun exited => ?_⟩
      rw [position] at exited
      cases exited
  | spawn peer rest position below =>
      refine ⟨primed.first, ?_, fun exited => (by cases exited)⟩
      simp only [List.length_append, List.length_singleton]
      omega
  | _ => exact ⟨primed.first, counted, fun exited => (by cases exited)⟩

theorem primed_transition {session : Session} {seed : Peer} {state next : State}
    {action : Action} (transition : Transition session state action next)
    (accounting : Accounting session.config state) (primed : Primed seed state) :
    Primed seed next := by
  cases transition with
  | coordinator rule => exact primed_coordinatorStep rule accounting primed
  | @task index task phase effect found rule =>
      obtain ⟨later, first⟩ := primed.first
      refine ⟨⟨later ++ effect.batches, ?_⟩, ?_, fun exited => ?_⟩
      · rw [emit_sent, ← List.cons_append, ← first]
        rfl
      · rw [emit_activeTasks, emit_tasks, State.setTask, List.length_set]
        exact primed.counted
      · rw [emit_coordinator] at exited
        rw [emit_tasks, State.setTask, Ne, List.set_eq_nil_iff]
        exact primed.exhausted exited
  | receive isOpen queued => exact ⟨primed.first, primed.counted, primed.exhausted⟩
  | hangUp isOpen => exact ⟨primed.first, primed.counted, primed.exhausted⟩

/-- The task spawned first is the seed's. -/
theorem Primed.seed_spawned {seed : Peer} {state : State} (primed : Primed seed state)
    (history : History state) (some : state.tasks ≠ []) : seed ∈ state.spawned := by
  obtain ⟨later, first⟩ := primed.first
  rw [history.mem_spawned]
  have channel := history.channel
  have position := history.position
  rw [first] at channel
  cases examined : state.examined with
  | nil =>
      exfalso
      apply some
      have spawned := history.spawned
      rw [examined] at spawned
      exact List.map_eq_nil_iff.mp spawned
  | cons peer rest =>
      rw [examined] at position
      cases taken : state.taken with
      | nil =>
          rw [taken] at position
          cases position
      | cons peers others =>
          rw [taken] at channel position
          cases channel
          rw [List.flatten_cons, List.singleton_append, List.cons_append, List.cons.injEq]
            at position
          rw [position.1]
          exact List.mem_cons_self

/-! ## Silent crawls -/

/-- The report of the seed is about the seed. -/
theorem report_about {session : Session} {connector : PeerConnector}
    {socketAddr : Address → Option SocketAddr}
    {network : (peerTimeout : Nat) → Peer → Behaviour}
    (standard : session.connector = connector.connect socketAddr network) (seed : Peer) :
    (session.report seed).About seed := by
  have endpoint := report_endpoint standard seed
  unfold Session.report at endpoint ⊢
  split at endpoint
  next connection connected => exact Prod.mk.inj endpoint
  next => rfl
  next => rfl

/-- With a capacity of at least one, the channel of a session ends only after a
message about the seed, and its coordinator never panics. -/
theorem reportsSeed_of_capacity {session : Session} {connector : PeerConnector}
    {socketAddr : Address → Option SocketAddr}
    {network : (peerTimeout : Nat) → Peer → Behaviour}
    (standard : session.connector = connector.connect socketAddr network) (seed : Peer)
    (capacity : 1 ≤ session.config.maxConcurrentTasks)
    (bound : session.config.maxConcurrentTasks < USize.size) :
    Crawl.ReportsSeed ⟨session, coordinate session.config seed⟩ seed := by
  intro actions state run unreported
  have invariants := run_invariant
    (fun state => Accounting session.config state ∧ Occupied seed state ∧ Primed seed state)
    (fun kept transition holds =>
      ⟨accounting_transition transition holds.1,
        occupied_transition kept transition holds.1 holds.2.1,
        primed_transition transition holds.1 holds.2.2⟩)
    run ⟨accounting_coordinate session.config seed, occupied_coordinate seed capacity,
      primed_coordinate seed capacity⟩
  obtain ⟨accounting, occupied, primed⟩ := invariants
  constructor
  · rintro ⟨exited, -⟩
    have exhausted := occupied.exit exited
    have spawned := primed.seed_spawned (history_run run) (primed.exhausted exhausted)
    obtain ⟨task, member, rfl⟩ := List.mem_map.mp spawned
    obtain ⟨index, found⟩ := List.mem_iff_getElem?.mp member
    have reported := exhausted_reported run exhausted found
    apply unreported
    refine ⟨index, session.report task.peer, ?_, report_about standard task.peer⟩
    rw [← mem_messagesOf, reported]
    exact List.mem_singleton_self _
  · rintro (panicked | ⟨decrements, zero⟩ | ⟨peer, rest, position, below, full⟩)
    · cases occupied.exhausted .panicked panicked
    · have positive := accounting.activeTasks_pos decrements
      omega
    · change state.activeTasks < session.config.maxConcurrentTasks at below
      omega

/-- A session whose coordinator panicked at the start is silent. -/
theorem not_reportsSeed_panickedStart (session : Session) (seed : Peer) :
    ¬ Crawl.ReportsSeed ⟨session, panickedStart⟩ seed := by
  intro reports
  have unreported : ¬ panickedStart.Carried seed := by
    rintro ⟨index, message, member, -⟩
    cases member
  exact (reports [] panickedStart (.nil _) unreported).1 ⟨rfl, rfl⟩

/-- With a capacity that a channel can have, what holds of every run of a session
from `coordinate` holds of the crawl that `Crawler::crawl` starts. -/
theorem coordinateWithin_granted {maxCapacity : Nat} {config : SessionConfig}
    (within : config.maxConcurrentTasks ≤ maxCapacity) (seed : Peer) :
    coordinateWithin maxCapacity config seed = coordinate config seed :=
  if_pos within

theorem coordinateWithin_refused {maxCapacity : Nat} {config : SessionConfig}
    (refused : ¬ (1 ≤ config.maxConcurrentTasks ∧ config.maxConcurrentTasks ≤ maxCapacity))
    (seed : Peer) : coordinateWithin maxCapacity config seed = panickedStart := by
  unfold coordinateWithin
  split
  next within =>
    have zero : config.maxConcurrentTasks = 0 := by omega
    rw [coordinate, if_pos zero]
    rfl
  next => rfl

/-- A crawl reports its seed before its channel ends, in every interleaving that
keeps the receiver, exactly when the number of concurrent tasks is a capacity
that a channel can have: at least one, and at most the largest. -/
theorem crawl_reports_seed_iff (maxCapacity : Nat) (builder : CrawlerBuilder)
    (socketAddr : Address → Option SocketAddr)
    (network : (peerTimeout : Nat) → Peer → Behaviour) (seed : Peer) :
    ∃ crawl, builder.build.crawl maxCapacity socketAddr network seed = .ok crawl ∧
      (crawl.ReportsSeed seed ↔
        1 ≤ builder.maxConcurrentTasks.toNat ∧
          builder.maxConcurrentTasks.toNat ≤ maxCapacity) := by
  refine ⟨_, rfl, ?_⟩
  constructor
  · intro reports
    by_contra refused
    have start : coordinateWithin maxCapacity builder.build.sessionConfig seed = panickedStart :=
      coordinateWithin_refused refused seed
    change Crawl.ReportsSeed ⟨_, coordinateWithin maxCapacity builder.build.sessionConfig seed⟩
      seed at reports
    rw [start] at reports
    exact not_reportsSeed_panickedStart _ seed reports
  · rintro ⟨capacity, within⟩
    have start : coordinateWithin maxCapacity builder.build.sessionConfig seed =
        coordinate builder.build.sessionConfig seed := coordinateWithin_granted within seed
    change Crawl.ReportsSeed ⟨_, coordinateWithin maxCapacity builder.build.sessionConfig seed⟩
      seed
    rw [start]
    exact reportsSeed_of_capacity rfl seed capacity builder.maxConcurrentTasks.toNat_lt_size

/-- A builder with no concurrent task is accepted. The caller of its crawl gets a
receiver whose channel has ended, without a message about a seed that listens,
even where every capacity but zero is possible. -/
theorem zero_tasks_crawl_silent :
    (CrawlerBuilder.new.withMaxConcurrentTasks 0).Configured ∧
      ∃ crawl, (CrawlerBuilder.new.withMaxConcurrentTasks 0).build.crawl (USize.size - 1)
          (fun _ => none) leafNetwork echoSeed = .ok crawl ∧
        crawl.start.SendersGone ∧ crawl.start.log = [] ∧
        crawl.start.coordinator = .exited .panicked ∧ ¬ crawl.ReportsSeed echoSeed := by
  refine ⟨.withMaxConcurrentTasks .new 0, _, rfl, ?_⟩
  have start : coordinateWithin (USize.size - 1)
      (CrawlerBuilder.new.withMaxConcurrentTasks 0).build.sessionConfig echoSeed =
        panickedStart := by
    apply coordinateWithin_refused
    rintro ⟨capacity, -⟩
    cases capacity
  dsimp only
  rw [start]
  exact ⟨⟨rfl, rfl⟩, rfl, rfl, not_reportsSeed_panickedStart _ echoSeed⟩

end Crawler

end BitcoinPeers

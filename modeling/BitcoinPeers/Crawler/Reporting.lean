import BitcoinPeers.Crawler.Completeness
import BitcoinPeers.Crawler.Connection
import BitcoinPeers.Crawler.Provenance

/-!
Contract: what a crawl reports about each peer it processes.

Owns the reporting invariant: a task that is past its report has put exactly one
message on the crawl channel, the one the connector's answer for its peer
determines, unless the caller has dropped the receiver; every other task has put
none there.

Does not own: which peers are processed.
-/

namespace BitcoinPeers.Crawler

open BitcoinPeers.Foundation

/-- The message the connector's answer determines. -/
def Session.report (session : Session) (peer : Peer) : CrawlerMessage :=
  match session.connector session.config.peerTimeout peer with
  | .connected connection => .listening connection.peer
  | .refused _ | .timedOut => .nonListening peer

/-- The messages a task has put on the crawl channel. -/
def State.messagesOf (state : State) (index : Nat) : List CrawlerMessage :=
  state.log.filterMap fun entry => if entry.1 = index then some entry.2 else none

/-- The task is past its report. -/
def TaskPhase.reported : TaskPhase → Bool
  | .connecting | .sendingNonListening | .sendingListening _ => false
  | _ => true

/-- What a task has reported: its one message once it is past its report, unless
the channel was closed before. -/
def ReportedOnce (session : Session) (isOpen : Bool) (task : Task)
    (messages : List CrawlerMessage) : Prop :=
  messages = (if task.phase.reported then [session.report task.peer] else []) ∨
    isOpen = false ∧ messages = []

/-! ## One step -/

theorem crawlPort_ready {state : State} (ready : state.crawlPort = .ready) :
    state.crawlOpen = true := by
  unfold State.crawlPort at ready
  split at ready
  next isOpen => exact isOpen
  next => cases ready

/-- A task step that reports finds nothing reported before. -/
theorem ReportedOnce.empty {session : Session} {task : Task} {messages : List CrawlerMessage}
    (once : ReportedOnce session true task messages) (before : task.phase.reported = false) :
    messages = [] := by
  rcases once with reported | ⟨closed, -⟩
  · simpa [before] using reported
  · cases closed

theorem TaskStep.reportedOnce {session : Session} {state : State} {task : Task}
    {phase : TaskPhase} {effect : Effect} (rule : TaskStep session state task phase effect)
    (carried : task.phase.Carries session (fun _ => True) task.peer)
    (refused : task.phase = .sendingNonListening →
      session.report task.peer = .nonListening task.peer)
    {messages : List CrawlerMessage}
    (once : ReportedOnce session state.crawlOpen task messages) :
    ReportedOnce session state.crawlOpen ⟨task.peer, phase⟩ (messages ++ effect.messages) := by
  cases rule with
  | crawlClosed position closed =>
      have before : task.phase.reported = false := by
        rcases position with position | ⟨connection, position⟩ <;> rw [position] <;> rfl
      right
      rcases once with reported | ⟨-, none⟩
      · exact ⟨closed, by simpa [before, Effect.messages] using reported⟩
      · exact ⟨closed, by simpa [Effect.messages] using none⟩
  | reportNonListening position port =>
      rw [crawlPort_ready port] at once
      left
      rw [once.empty (by rw [position]; rfl), refused position]
      rfl
  | reportListening connection position port =>
      rw [crawlPort_ready port] at once
      rw [position] at carried
      have answer : session.report task.peer = .listening connection.peer := by
        rw [Session.report, show session.connector _ _ = _ from carried]
      left
      rw [once.empty (by rw [position]; rfl), answer]
      rfl
  | _ => simpa [ReportedOnce, TaskPhase.reported, Effect.messages, *] using once

theorem TaskStep.refused_eq {session : Session} {state : State} {task : Task}
    {phase : TaskPhase} {effect : Effect} (rule : TaskStep session state task phase effect)
    (after : phase = .sendingNonListening) :
    session.report task.peer = .nonListening task.peer := by
  cases rule with
  | refused position answer =>
      unfold Session.report
      split
      next connection here => exact absurd here (answer connection)
      next => rfl
      next => rfl
  | _ => cases after

theorem messagesOf_emit (state : State) (index other : Nat) (effect : Effect) :
    (state.emit index effect).messagesOf other =
      state.messagesOf other ++ if index = other then effect.messages else [] := by
  unfold State.messagesOf
  rw [emit_log, List.filterMap_append, List.filterMap_map]
  by_cases same : index = other
  · simp [same]
  · simp [same]

/-! ## The reporting invariant -/

structure Reported (session : Session) (state : State) : Prop where
  messages : ∀ index task, state.tasks[index]? = some task →
    ReportedOnce session state.crawlOpen task (state.messagesOf index)
  refused : ∀ task ∈ state.tasks, task.phase = .sendingNonListening →
    session.report task.peer = .nonListening task.peer
  unspawned : ∀ index, state.tasks.length ≤ index → state.messagesOf index = []

theorem reported_coordinate (session : Session) (seed : Peer) :
    Reported session (coordinate session.config seed) := by
  have untouched : (coordinate session.config seed).tasks = [] := by
    unfold coordinate
    split <;> rfl
  refine ⟨fun index task found => ?_, fun task member => ?_, fun index _ => ?_⟩
  · rw [untouched, List.getElem?_nil] at found
    cases found
  · rw [untouched] at member
    cases member
  · unfold coordinate
    split <;> rfl

theorem reported_coordinatorStep {session : Session} {state next : State}
    (rule : CoordinatorStep session.config state next) (reported : Reported session state) :
    Reported session next := by
  cases rule with
  | spawn peer rest position below =>
      refine ⟨fun index task found => ?_, fun task member => ?_, fun index beyond => ?_⟩
      · rw [List.getElem?_append] at found
        split at found
        next inside => exact reported.messages index task found
        next outside =>
          have none := reported.unspawned index (by omega)
          rw [List.getElem?_singleton] at found
          split at found
          · cases found
            exact .inl none
          · cases found
      · rcases List.mem_append.mp member with old | new
        · exact reported.refused task old
        · rw [List.mem_singleton.mp new]
          exact nofun
      · apply reported.unspawned
        rw [List.length_append] at beyond
        omega
  | _ => exact ⟨reported.messages, reported.refused, reported.unspawned⟩

theorem reported_taskStep {session : Session} {state : State} {index : Nat} {task : Task}
    {phase : TaskPhase} {effect : Effect} (found : state.tasks[index]? = some task)
    (rule : TaskStep session state task phase effect)
    (carried : task.phase.Carries session (fun _ => True) task.peer)
    (reported : Reported session state) :
    Reported session ((state.setTask index ⟨task.peer, phase⟩).emit index effect) := by
  obtain ⟨inBounds, here⟩ := List.getElem?_eq_some_iff.mp found
  have member := List.mem_of_getElem? found
  have moved := rule.reportedOnce carried (reported.refused task member)
    (reported.messages index task found)
  refine ⟨fun other after stands => ?_, fun other inTasks => ?_, fun other beyond => ?_⟩
  · rw [messagesOf_emit, emit_crawlOpen]
    change ReportedOnce session state.crawlOpen after (state.messagesOf other ++ _)
    rw [emit_tasks] at stands
    by_cases same : index = other
    · subst same
      rw [State.setTask, List.getElem?_set_self inBounds] at stands
      cases stands
      rw [if_pos rfl]
      exact moved
    · rw [State.setTask, List.getElem?_set_ne same] at stands
      rw [if_neg same, List.append_nil]
      exact reported.messages other after stands
  · rw [emit_tasks] at inTasks
    rcases List.mem_or_eq_of_mem_set inTasks with old | new
    · exact reported.refused other old
    · rw [new]
      exact rule.refused_eq
  · rw [emit_tasks, State.setTask, List.length_set] at beyond
    rw [messagesOf_emit]
    change state.messagesOf other ++ _ = _
    rw [if_neg (by omega), List.append_nil]
    exact reported.unspawned other beyond

theorem reported_transition {session : Session} {state next : State} {action : Action}
    (transition : Transition session state action next)
    (sourced : Sourced session (fun _ => True) state) (reported : Reported session state) :
    Reported session next := by
  cases transition with
  | coordinator rule => exact reported_coordinatorStep rule reported
  | task found rule =>
      have carried := (sourced.tasks _ (List.mem_of_getElem? found)).2
      exact reported_taskStep found rule carried reported
  | receive isOpen queued =>
      exact ⟨reported.messages, reported.refused, reported.unspawned⟩
  | hangUp isOpen =>
      refine ⟨fun index task found => ?_, reported.refused, reported.unspawned⟩
      have once := reported.messages index task found
      rw [isOpen] at once
      rcases once with reported | ⟨closed, -⟩
      · exact .inl reported
      · cases closed

theorem reported_run {session : Session} {Allowed : State → Action → Prop} {seed : Peer}
    {actions : List Action} {state : State}
    (run : (machine session).Run Allowed (coordinate session.config seed) actions state) :
    Reported session state :=
  (run_invariant
    (fun state => (History state ∧ Sourced session (fun _ => True) state) ∧
      Reported session state)
    (fun _ transition holds =>
      ⟨⟨history_transition transition holds.1.1,
        sourced_transition (inherited_any session) transition holds.1.1 holds.1.2⟩,
        reported_transition transition holds.1.2 holds.2⟩)
    run
    ⟨⟨history_coordinate session.config seed, sourced_coordinate trivial⟩,
      reported_coordinate session seed⟩).2

/-- The caller keeps the receiver as long as no step drops it. -/
theorem crawlOpen_run {session : Session} {seed : Peer} {actions : List Action} {state : State}
    (run : (machine session).Run KeepsReceiver (coordinate session.config seed) actions state) :
    state.crawlOpen = true := by
  apply run_invariant (fun state => state.crawlOpen = true) _ run
  · unfold coordinate
    split <;> rfl
  · intro state next action kept transition isOpen
    cases transition with
    | coordinator rule => cases rule <;> exact isOpen
    | task found rule =>
        rw [emit_crawlOpen]
        exact isOpen
    | receive _ queued => exact isOpen
    | hangUp _ => exact absurd rfl kept

/-! ## The exhausted crawl -/

/-- At the exhausted exit every task has reported once. -/
theorem exhausted_reported {session : Session} {seed : Peer} {actions : List Action}
    {state : State}
    (run : (machine session).Run KeepsReceiver (coordinate session.config seed) actions state)
    (exited : state.coordinator = .exited .exhausted) {index : Nat} {task : Task}
    (found : state.tasks[index]? = some task) :
    state.messagesOf index = [session.report task.peer] := by
  have settled : task.phase.running = false := by
    by_contra running
    have some := runningTasks_pos found (by simpa using running)
    have none := ((accounting_run run).drained exited).1
    omega
  have past : task.phase.reported = true := by
    cases phase : task.phase <;> rw [phase] at settled <;> first | rfl | cases settled
  have once := (reported_run run).messages index task found
  rw [crawlOpen_run run] at once
  rcases once with reported | ⟨closed, -⟩
  · rw [reported, if_pos past]
  · cases closed

/-- After the exhausted exit nothing more is reported. -/
theorem exhausted_silent {session : Session} {Allowed : State → Action → Prop}
    {state final : State} {later : List Action}
    (continued : (machine session).Run Allowed state later final)
    (exited : state.coordinator = .exited .exhausted) (none : state.runningTasks = 0) :
    final.log = state.log := by
  have silent : final.coordinator = .exited .exhausted ∧ final.runningTasks = 0 ∧
      final.log = state.log := by
    apply run_invariant (fun middle => middle.coordinator = .exited .exhausted ∧
      middle.runningTasks = 0 ∧ middle.log = state.log) _ continued ⟨exited, none, rfl⟩
    rintro middle next action - transition ⟨position, idle, same⟩
    cases transition with
    | coordinator rule => cases rule <;> simp_all
    | task found rule =>
        have some := runningTasks_pos found rule.was_running
        omega
    | receive isOpen queued => exact ⟨position, idle, same⟩
    | hangUp isOpen => exact ⟨position, idle, same⟩
  exact silent.2.2

/-! ## With the standard connector -/

/-- The report of a peer is about its endpoint. -/
theorem report_endpoint {session : Session} {connector : PeerConnector}
    {socketAddr : Address → Option SocketAddr}
    {network : (peerTimeout : Nat) → Peer → Behaviour}
    (standard : session.connector = connector.connect socketAddr network) (peer : Peer) :
    (session.report peer).peer.endpoint = peer.endpoint := by
  unfold Session.report
  split
  next connection connected =>
    rw [standard] at connected
    exact PeerConnector.connect_endpoint connected
  next => rfl
  next => rfl

/-- The peers a task was spawned for are the first occurrences of the entries
looked at so far, and the tested set is these and the one held at the capacity
wait. With the standard connector and a kept receiver, at the exhausted exit
every task has reported its peer exactly once, and nothing is reported after. -/
theorem processed_and_reported_once (session : Session) (seed : Peer) :
    (∀ actions state, (machine session).Run Machine.Always (coordinate session.config seed)
        actions state →
      state.taken.flatten = state.examined ++ state.coordinator.remaining ∧
      state.spawned = state.examined.eraseDups ∧
      (∀ peer, peer ∈ state.testedPeers ↔
        peer ∈ state.spawned ∨ peer ∈ state.coordinator.held) ∧
      state.coordinator.held.length ≤ 1) ∧
    ∀ (connector : PeerConnector) socketAddr network,
      session.connector = connector.connect socketAddr network →
      ∀ actions state, (machine session).Run KeepsReceiver (coordinate session.config seed)
        actions state → state.coordinator = .exited .exhausted →
      (∀ index task, state.tasks[index]? = some task →
        state.messagesOf index = [.nonListening task.peer] ∨
          ∃ peer, state.messagesOf index = [.listening peer] ∧
            peer.address = task.peer.address ∧ peer.port = task.peer.port) ∧
      ∀ later final, (machine session).Run Machine.Always state later final →
        final.log = state.log := by
  constructor
  · intro actions state run
    have history := history_run run
    refine ⟨history.position, history.spawned, history.tested, ?_⟩
    cases state.coordinator <;> simp [Coordinator.held]
  · intro connector socketAddr network standard actions state run exited
    refine ⟨fun index task found => ?_, fun later final continued => ?_⟩
    · have reported := exhausted_reported run exited found
      have endpoint := report_endpoint standard task.peer
      cases message : session.report task.peer with
      | nonListening peer =>
          left
          rw [reported]
          unfold Session.report at message ⊢
          split at message
          next => cases message
          next => simp
          next => simp
      | listening peer =>
          right
          rw [message] at reported endpoint
          exact ⟨peer, reported, congrArg Prod.fst endpoint, congrArg Prod.snd endpoint⟩
    · exact exhausted_silent continued exited ((accounting_run run).drained exited).1

/-! ## A network that gossips its seed -/

def wrote : Connection.Response := ⟨.ok (), .ok .verack⟩

def got (message : NetworkMessage) : Connection.Response := ⟨.ok (), .ok message⟩

/-- The version message of a listening peer. -/
def listenerVersion : VersionMessage where
  version := 70001
  services := ServiceFlags.NETWORK
  timestamp := 0
  receiver := Address.new (.v4 0 0) ServiceFlags.NONE
  sender := Address.new (.v4 0 0) ServiceFlags.NETWORK
  nonce := 9
  userAgent := "/listener:1.0/"
  startHeight := 0
  relay := true

/-- A peer that completes the handshake and then sends one `addrv2` message. -/
def listener (gossip : List AddrV2Message) : Behaviour where
  link :=
    { dial := ⟨some (.ok ()), some false, some (.ok ())⟩
      nanoseconds := 1, processId := 1, unixTimestamp := 0
      responses := [wrote, got (.version listenerVersion), wrote, got .verack] }
  exchange := ⟨.ok (), [⟨0, .message (.addrV2 gossip), .ok ()⟩]⟩

/-- A peer that does not answer. -/
def absent : Behaviour where
  link :=
    { dial := ⟨none, none, none⟩, nanoseconds := 1, processId := 1, unixTimestamp := 0
      responses := [] }
  exchange := ⟨.ok (), []⟩

def echoSeed : Peer := .new (.ipv4 1) 8333

/-- The seed's entry as another peer gossips it. -/
def echoEntry : AddrV2Message := ⟨0, ServiceFlags.NETWORK, .ipv4 1, 8333⟩

/-- The seed gossips a second peer, which gossips the seed. A second attempt at
the seed's endpoint is not answered. -/
def echoNetwork (_ : Nat) (peer : Peer) : Behaviour :=
  if peer = echoSeed then listener [⟨0, ServiceFlags.NETWORK, .ipv4 2, 8333⟩]
  else if peer.address = .ipv4 2 then listener [echoEntry]
  else absent

def echoSession : Session where
  config := { maxConcurrentTasks := 1, peerTimeout := 20000000000 }
  connector := PeerConnector.connect ⟨.nonListening .unknown .v2Preferred {} none⟩
    (fun _ => none) echoNetwork

/-- Each task runs to its end before the coordinator moves on. -/
def echoSchedule : List Action :=
  List.replicate 4 .coordinator ++ List.replicate 6 (.task 0) ++
    List.replicate 6 .coordinator ++ List.replicate 6 (.task 1) ++
    List.replicate 6 .coordinator ++ List.replicate 3 (.task 2) ++
    List.replicate 4 .coordinator

theorem processed_and_reported_once_echo :
    ∃ state, (machine echoSession).Run KeepsReceiver (coordinate echoSession.config echoSeed)
        echoSchedule state ∧ state.coordinator = .exited .exhausted ∧
      ∀ later final, (machine echoSession).Run Machine.Always state later final →
        final.log = state.log := by
  obtain ⟨state, run, passed⟩ := Machine.exists_run_of_execute keepsReceiver
    (fun state => state.coordinator = .exited .exhausted) keepsReceiver_sound
    (show ((machine echoSession).execute keepsReceiver (coordinate echoSession.config echoSeed)
      echoSchedule).any _ = true by decide)
  simp only [decide_eq_true_eq] at passed
  exact ⟨state, run, passed, ((processed_and_reported_once echoSession echoSeed).2
    ⟨.nonListening .unknown .v2Preferred {} none⟩ (fun _ => none) echoNetwork rfl
    echoSchedule state run passed).2⟩

end BitcoinPeers.Crawler

import BitcoinPeers.Crawler.AfterHangUp
import BitcoinPeers.Crawler.Unfiltered

/-!
Contract: states of the session and of the session without the filter that are
alike.

Owns:
- the relation of their data, over any relation of their tasks' program points;
- the relation of their coordinators, inside the loop and after it;
- how a step of either session, or of both, keeps them.

Does not own: which program points are related; each direction of the
equivalence has its own.
-/

namespace BitcoinPeers.Crawler

open BitcoinPeers.Foundation

/-! ## Related states -/

/-- Program points before the filter. -/
def TaskPhase.early : TaskPhase → Bool
  | .connecting | .sendingNonListening | .sendingListening _ | .gettingPeers _ => true
  | _ => false

/-- Program points a step from an early point leads to. -/
def TaskPhase.afterEarly : TaskPhase → Bool
  | .filtering _ | .finishing _ => true
  | phase => phase.early

/-- The two sessions have the same tested peers, counter and crawl channel, tasks
for the same peers at related points, and discovery queues that bring the same
news. -/
structure Alike (Points : Finset Peer → TaskPhase → TaskPhase → Prop)
    (filtered other : State) : Prop where
  activeTasks : other.activeTasks = filtered.activeTasks
  testedPeers : other.testedPeers = filtered.testedPeers
  crawl : other.crawl = filtered.crawl
  crawlOpen : other.crawlOpen = filtered.crawlOpen
  tasks : List.Forall₂
    (fun left right => left.peer = right.peer ∧
      Points filtered.testedPeers left.phase right.phase)
    filtered.tasks other.tasks
  peerDiscovery : Padded (SameNews filtered.testedPeers) (NoNews filtered.testedPeers)
    filtered.peerDiscovery other.peerDiscovery

/-- Coordinators at the same point of the loop, with the same news left in the
current batch. -/
inductive SamePoint (tested : Finset Peer) : Coordinator → Coordinator → Prop where
  | top : SamePoint tested .top .top
  | pollDiscovery : SamePoint tested .pollDiscovery .pollDiscovery
  | pollDone : SamePoint tested .pollDone .pollDone
  | batch {left right : List Peer} (same : SameNews tested left right) :
      SamePoint tested (.batch left) (.batch right)
  | capacity (peer : Peer) {left right : List Peer} (same : SameNews tested left right) :
      SamePoint tested (.capacity peer left) (.capacity peer right)

/-- Both coordinators have left the loop the same way. -/
structure Ended (filtered other : State) : Prop where
  exits : ∃ reason, filtered.coordinator = .exited reason ∧ other.coordinator = .exited reason
  spawned : other.spawned = filtered.spawned
  testedPeers : other.testedPeers = filtered.testedPeers
  crawlOpen : other.crawlOpen = filtered.crawlOpen

section Ended

variable {filtered other : State}

/-- A session without room for a task ends before its first step. -/
theorem ended_coordinate {config : SessionConfig} (none : config.maxConcurrentTasks = 0)
    (seed : Peer) : Ended (coordinate config seed) (coordinate config seed) := by
  refine ⟨⟨.panicked, ?_, ?_⟩, rfl, rfl, rfl⟩ <;> simp [coordinate, none]

theorem coordinate_top {config : SessionConfig} (some : config.maxConcurrentTasks ≠ 0)
    (seed : Peer) : (coordinate config seed).coordinator = .top := by
  simp [coordinate, some]

theorem Ended.symm (ended : Ended filtered other) : Ended other filtered := by
  obtain ⟨reason, left, right⟩ := ended.exits
  exact ⟨⟨reason, right, left⟩, ended.spawned.symm, ended.testedPeers.symm,
    ended.crawlOpen.symm⟩

/-- A task step changes nothing that matters after the exit. -/
theorem Ended.advance (ended : Ended filtered other) {index : Nat} {task : Task}
    (found : filtered.tasks[index]? = some task) (phase : TaskPhase) (effect : Effect) :
    Ended ((filtered.setTask index ⟨task.peer, phase⟩).emit index effect) other := by
  refine ⟨?_, ?_, ?_, ?_⟩
  · rw [emit_coordinator]
    exact ended.exits
  · rw [emit_spawned, spawned_setTask found]
    exact ended.spawned
  · rw [emit_testedPeers]
    exact ended.testedPeers
  · rw [emit_crawlOpen]
    exact ended.crawlOpen

/-- After the exit the coordinator does not step. -/
theorem Ended.no_coordinatorStep (ended : Ended filtered other) {config : SessionConfig}
    {next : State} (rule : CoordinatorStep config filtered next) : False := by
  obtain ⟨reason, left, -⟩ := ended.exits
  have stepped := stepCoordinator_of_rule rule
  simp [stepCoordinator, left] at stepped

end Ended

section SamePoint

variable {tested : Finset Peer} {left right : Coordinator}

theorem SamePoint.symm (point : SamePoint tested left right) : SamePoint tested right left := by
  cases point with
  | top => exact .top
  | pollDiscovery => exact .pollDiscovery
  | pollDone => exact .pollDone
  | batch same => exact .batch (Eq.symm same)
  | capacity peer same => exact .capacity peer (Eq.symm same)

theorem SamePoint.live (point : SamePoint tested left right) : right.isExited = false := by
  cases point <;> rfl

/-- Outside a batch related coordinators are at equal points. -/
theorem SamePoint.eq (point : SamePoint tested left right)
    (outside : left.isProcessing = false) : right = left := by
  cases point with
  | batch => cases outside
  | capacity => cases outside
  | _ => rfl

theorem SamePoint.of_batch {peers : List Peer} (point : SamePoint tested (.batch peers) right) :
    ∃ others, right = .batch others ∧ SameNews tested peers others := by
  cases point with
  | @batch _ others same => exact ⟨others, rfl, same⟩

theorem SamePoint.of_capacity {peer : Peer} {peers : List Peer}
    (point : SamePoint tested (.capacity peer peers) right) :
    ∃ others, right = .capacity peer others ∧ SameNews tested peers others := by
  cases point with
  | @capacity _ _ others same => exact ⟨others, rfl, same⟩

end SamePoint

section Alike

variable {Points : Finset Peer → TaskPhase → TaskPhase → Prop} {filtered other : State}

theorem alike_coordinate (config : SessionConfig) (seed : Peer) :
    Alike Points (coordinate config seed) (coordinate config seed) := by
  unfold coordinate
  split
  · exact ⟨rfl, rfl, rfl, rfl, .nil, .nil⟩
  · exact ⟨rfl, rfl, rfl, rfl, .nil, .pair rfl .nil⟩

theorem Alike.spawned (alike : Alike Points filtered other) :
    other.spawned = filtered.spawned := by
  have peers : List.Forall₂ (· = ·) filtered.spawned other.spawned := by
    unfold State.spawned
    rw [List.forall₂_map_left_iff, List.forall₂_map_right_iff]
    exact alike.tasks.imp fun _ _ both => both.1
  rw [List.forall₂_eq_eq_eq] at peers
  exact peers.symm

theorem Alike.crawlPort (alike : Alike Points filtered other) :
    other.crawlPort = filtered.crawlPort := by
  unfold State.crawlPort
  rw [alike.crawlOpen, alike.crawl]

theorem setTask_self {state : State} {index : Nat} {task : Task}
    (found : state.tasks[index]? = some task) : state.setTask index task = state := by
  obtain ⟨inBounds, here⟩ := List.getElem?_eq_some_iff.mp found
  unfold State.setTask
  rw [← here, List.set_getElem_self]

theorem moved_task {state : State} {index : Nat} {task : Task}
    (found : state.tasks[index]? = some task) (moved : Task) (effect : Effect) :
    ((state.setTask index moved).emit index effect).tasks[index]? = some moved := by
  obtain ⟨inBounds, -⟩ := List.getElem?_eq_some_iff.mp found
  rw [emit_tasks]
  exact List.getElem?_set_self inBounds

/-- Both sessions move task `index`. -/
theorem Alike.advance (alike : Alike Points filtered other) (index : Nat) (peer : Peer)
    {left right : TaskPhase} (points : Points filtered.testedPeers left right)
    {effect answer : Effect} (messages : answer.messages = effect.messages)
    (batches : Padded (SameNews filtered.testedPeers) (NoNews filtered.testedPeers)
      (filtered.peerDiscovery ++ effect.batches) (other.peerDiscovery ++ answer.batches)) :
    Alike Points ((filtered.setTask index ⟨peer, left⟩).emit index effect)
      ((other.setTask index ⟨peer, right⟩).emit index answer) := by
  refine ⟨?_, ?_, ?_, ?_, ?_, ?_⟩
  · simpa [State.setTask] using alike.activeTasks
  · simpa [State.setTask] using alike.testedPeers
  · simp [State.setTask, alike.crawl, messages]
  · simpa [State.setTask] using alike.crawlOpen
  · rw [emit_tasks, emit_tasks, emit_testedPeers]
    exact forall₂_set alike.tasks index ⟨rfl, points⟩
  · rw [emit_peerDiscovery, emit_peerDiscovery, emit_testedPeers]
    exact batches

/-- Only the session moves its task. -/
theorem Alike.advanceLeft (alike : Alike Points filtered other) {index : Nat} {peer : Peer}
    {left right : TaskPhase} (across : other.tasks[index]? = some ⟨peer, right⟩)
    (points : Points filtered.testedPeers left right) {effect : Effect}
    (messages : effect.messages = []) (batches : effect.batches = []) :
    Alike Points ((filtered.setTask index ⟨peer, left⟩).emit index effect) other := by
  have moved : Alike Points ((filtered.setTask index ⟨peer, left⟩).emit index effect)
      ((other.setTask index ⟨peer, right⟩).emit index .internal) := by
    refine alike.advance index peer points messages.symm ?_
    rw [batches]
    simpa [Effect.batches] using alike.peerDiscovery
  rw [setTask_self across] at moved
  exact moved

/-- Only the session without the filter moves its task. -/
theorem Alike.advanceRight (alike : Alike Points filtered other) {index : Nat} {peer : Peer}
    {left right : TaskPhase} (found : filtered.tasks[index]? = some ⟨peer, left⟩)
    (points : Points filtered.testedPeers left right) {answer : Effect}
    (messages : answer.messages = [])
    (batches : Padded (SameNews filtered.testedPeers) (NoNews filtered.testedPeers)
      filtered.peerDiscovery (other.peerDiscovery ++ answer.batches)) :
    Alike Points filtered ((other.setTask index ⟨peer, right⟩).emit index answer) := by
  have moved : Alike Points ((filtered.setTask index ⟨peer, left⟩).emit index .internal)
      ((other.setTask index ⟨peer, right⟩).emit index answer) := by
    refine alike.advance index peer points messages ?_
    simpa [Effect.batches] using batches
  rw [setTask_self found] at moved
  exact moved

/-- Coordinators that only move. -/
theorem Alike.place (alike : Alike Points filtered other) (left right : Coordinator) :
    Alike Points { filtered with coordinator := left } { other with coordinator := right } :=
  ⟨alike.activeTasks, alike.testedPeers, alike.crawl, alike.crawlOpen, alike.tasks,
    alike.peerDiscovery⟩

/-- Coordinators that take batches. -/
theorem Alike.requeue (alike : Alike Points filtered other) (left right : Coordinator)
    {lefts rights : List (List Peer)}
    (padded : Padded (SameNews filtered.testedPeers) (NoNews filtered.testedPeers) lefts rights)
    (received taken : List (List Peer)) :
    Alike Points
      { filtered with coordinator := left, peerDiscovery := lefts, taken := received }
      { other with coordinator := right, peerDiscovery := rights, taken := taken } :=
  ⟨alike.activeTasks, alike.testedPeers, alike.crawl, alike.crawlOpen, alike.tasks, padded⟩

/-- Both coordinators receive a result. -/
theorem Alike.release (alike : Alike Points filtered other) (left right : Coordinator)
    (done received : List TaskResult) :
    Alike Points
      { filtered with
        coordinator := left, activeTasks := filtered.activeTasks - 1, taskDone := done }
      { other with
        coordinator := right, activeTasks := other.activeTasks - 1, taskDone := received } :=
  ⟨congrArg (· - 1) alike.activeTasks, alike.testedPeers, alike.crawl, alike.crawlOpen,
    alike.tasks, alike.peerDiscovery⟩

/-- Both coordinators spawn the same peer. -/
theorem Alike.spawn (alike : Alike Points filtered other) (peer : Peer)
    (points : Points filtered.testedPeers .connecting .connecting) (left right : Coordinator) :
    Alike Points
      { filtered with
        coordinator := left, activeTasks := filtered.activeTasks + 1
        tasks := filtered.tasks ++ [⟨peer, .connecting⟩] }
      { other with
        coordinator := right, activeTasks := other.activeTasks + 1
        tasks := other.tasks ++ [⟨peer, .connecting⟩] } where
  activeTasks := congrArg (· + 1) alike.activeTasks
  testedPeers := alike.testedPeers
  crawl := alike.crawl
  crawlOpen := alike.crawlOpen
  tasks := List.rel_append alike.tasks (.cons ⟨rfl, points⟩ .nil)
  peerDiscovery := alike.peerDiscovery

/-- Both coordinators insert the same peer. -/
theorem Alike.insertPeer (alike : Alike Points filtered other)
    (grow : ∀ {tested wider : Finset Peer} {left right : TaskPhase}, tested ⊆ wider →
      Points tested left right → Points wider left right)
    (peer : Peer) (left right : Coordinator) :
    Alike Points
      { filtered with coordinator := left, testedPeers := insert peer filtered.testedPeers }
      { other with coordinator := right, testedPeers := insert peer other.testedPeers } where
  activeTasks := alike.activeTasks
  testedPeers := congrArg (insert peer) alike.testedPeers
  crawl := alike.crawl
  crawlOpen := alike.crawlOpen
  tasks := alike.tasks.imp fun _ _ both => ⟨both.1, grow (Finset.subset_insert _ _) both.2⟩
  peerDiscovery := alike.peerDiscovery.mono (fun _ _ => .mono (Finset.subset_insert _ _))
    (fun _ => .mono (Finset.subset_insert _ _))

end Alike

/-- A step from an early point needs nothing but the crawl channel, so the other
session can take it too. -/
theorem TaskStep.mirror {session : Session} {state other : State} {task : Task}
    {phase : TaskPhase} {effect : Effect} (rule : TaskStep session state task phase effect)
    (early : task.phase.early = true) (port : other.crawlPort = state.crawlPort)
    (isOpen : other.crawlOpen = state.crawlOpen) :
    TaskStep session other task phase effect ∧ phase.afterEarly = true ∧
      effect.batches = [] ∧ effect.results = [] := by
  cases rule with
  | connected connection position answer =>
      exact ⟨.connected connection position answer, rfl, rfl, rfl⟩
  | refused position answer => exact ⟨.refused position answer, rfl, rfl, rfl⟩
  | crawlClosed position closed =>
      exact ⟨.crawlClosed position (isOpen.trans closed), rfl, rfl, rfl⟩
  | reportNonListening position ready =>
      exact ⟨.reportNonListening position (port.trans ready), rfl, rfl, rfl⟩
  | reportListening connection position ready =>
      exact ⟨.reportListening connection position (port.trans ready), rfl, rfl, rfl⟩
  | gotPeers connection discovered position answer nonempty =>
      exact ⟨.gotPeers connection discovered position answer nonempty, rfl, rfl, rfl⟩
  | gotNone connection position answer =>
      exact ⟨.gotNone connection position answer, rfl, rfl, rfl⟩
  | filteredSome discovered position => rw [position] at early; cases early
  | filteredNone discovered position => rw [position] at early; cases early
  | discoveryClosed filtered position => rw [position] at early; cases early
  | discover filtered position => rw [position] at early; cases early
  | panic result position => rw [position] at early; cases early
  | deliver result position => rw [position] at early; cases early

section Inversion

variable {session : Session} {state : State} {task : Task} {phase : TaskPhase} {effect : Effect}

theorem TaskStep.of_filtering (rule : TaskStep session state task phase effect)
    {discovered : List Peer} (position : task.phase = .filtering discovered) :
    effect = .internal ∧
      (phase = .sendingPeers (filterTested state.testedPeers discovered) ∨
        phase = .finishing .noPeersFound ∧ NoNews state.testedPeers discovered) := by
  cases rule with
  | filteredSome other here nonempty =>
      cases position.symm.trans here
      exact ⟨rfl, .inl rfl⟩
  | filteredNone other here empty =>
      cases position.symm.trans here
      exact ⟨rfl, .inr ⟨rfl, empty⟩⟩
  | crawlClosed here => simp_all
  | _ => cases position.symm.trans ‹_›

theorem TaskStep.of_sendingPeers (rule : TaskStep session state task phase effect)
    (live : state.coordinator.isExited = false) {peers : List Peer}
    (position : task.phase = .sendingPeers peers) :
    phase = .finishing .foundPeers ∧ effect = .discover peers := by
  cases rule with
  | discover other here =>
      cases position.symm.trans here
      exact ⟨rfl, rfl⟩
  | discoveryClosed other here exited => simp_all
  | crawlClosed here => simp_all
  | _ => cases position.symm.trans ‹_›

theorem TaskStep.of_finishing (rule : TaskStep session state task phase effect)
    (live : state.coordinator.isExited = false) {result : TaskResult}
    (position : task.phase = .finishing result) :
    phase = .finished result ∧ effect = .deliver result ∧
      state.taskDone.length < session.config.maxConcurrentTasks := by
  cases rule with
  | deliver other here live room =>
      cases position.symm.trans here
      exact ⟨rfl, rfl, room⟩
  | panic other here exited => simp_all
  | crawlClosed here => simp_all
  | _ => cases position.symm.trans ‹_›

end Inversion

end BitcoinPeers.Crawler

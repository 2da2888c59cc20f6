import BitcoinPeers.Crawler.Session

/-!
Contract: inversion of the session's step function.

Owns the rules of the coordinator, the four kinds of task step, and the proofs
that every step of the machine is an instance of one of them and that every
instance is a step. Every invariant
of a session is proved by cases on `Transition` and never unfolds `step`.
-/

namespace BitcoinPeers.Crawler

open BitcoinPeers.Foundation

/-- The rules of `coordinate()`, one for each branch of its loop. -/
inductive CoordinatorStep (config : SessionConfig) (state : State) : State → Prop where
  | hangUp (position : state.coordinator = .top) (closed : state.crawlOpen = false) :
      CoordinatorStep config state { state with coordinator := .exited .hungUp }
  | proceed (position : state.coordinator = .top) (isOpen : state.crawlOpen = true) :
      CoordinatorStep config state { state with coordinator := .pollDiscovery }
  | take (peers : List Peer) (rest : List (List Peer))
      (position : state.coordinator = .pollDiscovery)
      (queued : state.peerDiscovery = peers :: rest) :
      CoordinatorStep config state
        { state with
          coordinator := .batch peers, peerDiscovery := rest, taken := state.taken ++ [peers] }
  | discoveryPending (position : state.coordinator = .pollDiscovery)
      (empty : state.peerDiscovery = []) :
      CoordinatorStep config state { state with coordinator := .pollDone }
  | exhaust (result : TaskResult) (rest : List TaskResult)
      (position : state.coordinator = .pollDone) (queued : state.taskDone = result :: rest)
      (last : state.activeTasks - 1 = 0) :
      CoordinatorStep config state
        { state with
          coordinator := .exited .exhausted, activeTasks := state.activeTasks - 1
          taskDone := rest }
  | complete (result : TaskResult) (rest : List TaskResult)
      (position : state.coordinator = .pollDone) (queued : state.taskDone = result :: rest)
      (more : state.activeTasks - 1 ≠ 0) :
      CoordinatorStep config state
        { state with
          coordinator := .top, activeTasks := state.activeTasks - 1, taskDone := rest }
  | donePending (position : state.coordinator = .pollDone) (empty : state.taskDone = []) :
      CoordinatorStep config state { state with coordinator := .pollDiscovery }
  | batchEnd (position : state.coordinator = .batch []) :
      CoordinatorStep config state { state with coordinator := .top }
  | duplicate (peer : Peer) (rest : List Peer)
      (position : state.coordinator = .batch (peer :: rest)) (known : peer ∈ state.testedPeers) :
      CoordinatorStep config state { state with coordinator := .batch rest }
  | insertPeer (peer : Peer) (rest : List Peer)
      (position : state.coordinator = .batch (peer :: rest)) (fresh : peer ∉ state.testedPeers) :
      CoordinatorStep config state
        { state with
          coordinator := .capacity peer rest, testedPeers := insert peer state.testedPeers }
  | reap (peer : Peer) (rest : List Peer) (result : TaskResult) (done : List TaskResult)
      (position : state.coordinator = .capacity peer rest)
      (atCapacity : config.maxConcurrentTasks ≤ state.activeTasks)
      (queued : state.taskDone = result :: done) :
      CoordinatorStep config state
        { state with activeTasks := state.activeTasks - 1, taskDone := done }
  | spawn (peer : Peer) (rest : List Peer)
      (position : state.coordinator = .capacity peer rest)
      (below : state.activeTasks < config.maxConcurrentTasks) :
      CoordinatorStep config state
        { state with
          coordinator := .batch rest, activeTasks := state.activeTasks + 1
          tasks := state.tasks ++ [⟨peer, .connecting⟩] }

theorem coordinatorStep_of_step {config : SessionConfig} {state next : State}
    (stepped : stepCoordinator config state = some next) : CoordinatorStep config state next := by
  unfold stepCoordinator at stepped
  split at stepped
  next position =>
    split at stepped
    next isOpen => cases stepped; exact .proceed position isOpen
    next closed => cases stepped; exact .hangUp position (by simpa using closed)
  next position =>
    split at stepped
    next peers rest queued => cases stepped; exact .take peers rest position queued
    next empty => cases stepped; exact .discoveryPending position empty
  next position =>
    split at stepped
    next result rest queued =>
      by_cases last : state.activeTasks - 1 = 0
      · rw [if_pos last] at stepped
        cases stepped
        exact .exhaust result rest position queued last
      · rw [if_neg last] at stepped
        cases stepped
        exact .complete result rest position queued last
    next empty => cases stepped; exact .donePending position empty
  next position => cases stepped; exact .batchEnd position
  next peer rest position =>
    split at stepped
    next known => cases stepped; exact .duplicate peer rest position known
    next fresh => cases stepped; exact .insertPeer peer rest position fresh
  next peer rest position =>
    split at stepped
    next atCapacity =>
      split at stepped
      next result done queued =>
        cases stepped
        exact .reap peer rest result done position atCapacity queued
      next => contradiction
    next below => cases stepped; exact .spawn peer rest position (by omega)
  next => contradiction

/-- The rules of a spawned task, one for each way its await points resolve. -/
inductive TaskStep (session : Session) (state : State) (task : Task) :
    TaskPhase → Effect → Prop where
  | connected (connection : PeerConnection) (position : task.phase = .connecting)
      (answer : session.connector session.config.peerTimeout task.peer = .connected connection) :
      TaskStep session state task (.sendingListening connection) .internal
  | refused (position : task.phase = .connecting)
      (answer : ∀ connection, session.connector session.config.peerTimeout task.peer ≠
        .connected connection) :
      TaskStep session state task .sendingNonListening .internal
  | crawlClosed (position : task.phase = .sendingNonListening ∨
        ∃ connection, task.phase = .sendingListening connection)
      (closed : state.crawlOpen = false) :
      TaskStep session state task (.finishing .channelClosed) .internal
  | reportNonListening (position : task.phase = .sendingNonListening)
      (port : state.crawlPort = .ready) :
      TaskStep session state task (.finishing .connectionFailed)
        (.report (.nonListening task.peer))
  | reportListening (connection : PeerConnection)
      (position : task.phase = .sendingListening connection) (port : state.crawlPort = .ready) :
      TaskStep session state task (.gettingPeers connection)
        (.report (.listening connection.peer))
  | gotPeers (connection : PeerConnection) (discovered : List Peer)
      (position : task.phase = .gettingPeers connection)
      (answer : connection.getPeers session.config.peerTimeout = .ok discovered)
      (nonempty : discovered ≠ []) :
      TaskStep session state task (.filtering discovered) .internal
  | gotNone (connection : PeerConnection) (position : task.phase = .gettingPeers connection)
      (answer : connection.getPeers session.config.peerTimeout = .ok [] ∨
        ∃ error, connection.getPeers session.config.peerTimeout = .error error) :
      TaskStep session state task (.finishing .noPeersFound) .internal
  | filteredSome (discovered : List Peer) (position : task.phase = .filtering discovered)
      (nonempty : filterTested state.testedPeers discovered ≠ []) :
      TaskStep session state task
        (.sendingPeers (filterTested state.testedPeers discovered)) .internal
  | filteredNone (discovered : List Peer) (position : task.phase = .filtering discovered)
      (empty : filterTested state.testedPeers discovered = []) :
      TaskStep session state task (.finishing .noPeersFound) .internal
  | discoveryClosed (filtered : List Peer) (position : task.phase = .sendingPeers filtered)
      (exited : state.coordinator.isExited = true) :
      TaskStep session state task (.finishing .channelClosed) .internal
  | discover (filtered : List Peer) (position : task.phase = .sendingPeers filtered)
      (live : state.coordinator.isExited = false) :
      TaskStep session state task (.finishing .foundPeers) (.discover filtered)
  | panic (result : TaskResult) (position : task.phase = .finishing result)
      (exited : state.coordinator.isExited = true) :
      TaskStep session state task .panicked .internal
  | deliver (result : TaskResult) (position : task.phase = .finishing result)
      (live : state.coordinator.isExited = false)
      (room : state.taskDone.length < session.config.maxConcurrentTasks) :
      TaskStep session state task (.finished result) (.deliver result)

theorem crawlPort_closed {state : State} (closed : state.crawlPort = .closed) :
    state.crawlOpen = false := by
  unfold State.crawlPort at closed
  split at closed
  next => split at closed <;> contradiction
  next isClosed => simpa using isClosed

theorem donePort_closed {config : SessionConfig} {state : State}
    (closed : state.donePort config = .closed) : state.coordinator.isExited = true := by
  unfold State.donePort at closed
  split at closed
  next exited => exact exited
  next => split at closed <;> contradiction

theorem donePort_ready {config : SessionConfig} {state : State}
    (ready : state.donePort config = .ready) :
    state.coordinator.isExited = false ∧ state.taskDone.length < config.maxConcurrentTasks := by
  unfold State.donePort at ready
  split at ready
  next => contradiction
  next live =>
    split at ready
    next room => exact ⟨by simpa using live, room⟩
    next => contradiction

theorem taskStep_of_advance {session : Session} {state : State} {task : Task}
    {phase : TaskPhase} {effect : Effect}
    (advanced : task.advance session state = some (phase, effect)) :
    TaskStep session state task phase effect := by
  unfold Task.advance at advanced
  split at advanced
  next position =>
    split at advanced
    next connection answer => cases advanced; exact .connected connection position answer
    next answer => cases advanced; exact .refused position (by simp [answer])
    next answer => cases advanced; exact .refused position (by simp [answer])
  next position =>
    split at advanced
    next closed => cases advanced; exact .crawlClosed (.inl position) (crawlPort_closed closed)
    next => contradiction
    next ready => cases advanced; exact .reportNonListening position ready
  next connection position =>
    split at advanced
    next closed =>
      cases advanced
      exact .crawlClosed (.inr ⟨connection, position⟩) (crawlPort_closed closed)
    next => contradiction
    next ready => cases advanced; exact .reportListening connection position ready
  next connection position =>
    split at advanced
    next answer => cases advanced; exact .gotNone connection position (.inl answer)
    next answer => cases advanced; exact .gotPeers connection _ position answer (by simp)
    next error answer => cases advanced; exact .gotNone connection position (.inr ⟨error, answer⟩)
  next discovered position =>
    split at advanced
    next empty => cases advanced; exact .filteredNone discovered position empty
    next peer rest kept =>
      cases advanced
      rw [← kept]
      exact .filteredSome discovered position (by simp [kept])
  next filtered position =>
    split at advanced
    next exited => cases advanced; exact .discoveryClosed filtered position exited
    next live => cases advanced; exact .discover filtered position (by simpa using live)
  next result position =>
    split at advanced
    next closed => cases advanced; exact .panic result position (donePort_closed closed)
    next => contradiction
    next ready =>
      obtain ⟨live, room⟩ := donePort_ready ready
      cases advanced
      exact .deliver result position live room
  next => contradiction
  next => contradiction

/-! ## Rules are steps -/

theorem stepCoordinator_of_rule {config : SessionConfig} {state next : State}
    (rule : CoordinatorStep config state next) :
    stepCoordinator config state = some next := by
  cases rule with
  | reap peer rest result done position atCapacity queued =>
      simp [stepCoordinator, position, atCapacity, queued]
  | spawn peer rest position below =>
      simp [stepCoordinator, position, Nat.not_le.mpr below]
  | _ => simp_all [stepCoordinator]

theorem advance_of_rule {session : Session} {state : State} {task : Task} {phase : TaskPhase}
    {effect : Effect} (rule : TaskStep session state task phase effect) :
    task.advance session state = some (phase, effect) := by
  cases rule with
  | refused position answer =>
      cases answered : session.connector session.config.peerTimeout task.peer with
      | connected connection => exact absurd answered (answer connection)
      | refused error => simp [Task.advance, position, answered]
      | timedOut => simp [Task.advance, position, answered]
  | crawlClosed position closed =>
      rcases position with position | ⟨connection, position⟩ <;>
        simp [Task.advance, position, State.crawlPort, closed]
  | gotPeers connection discovered position answer nonempty =>
      cases discovered with
      | nil => exact absurd rfl nonempty
      | cons peer rest => simp [Task.advance, position, answer]
  | gotNone connection position answer =>
      rcases answer with answer | ⟨error, answer⟩ <;> simp [Task.advance, position, answer]
  | filteredSome discovered position nonempty =>
      cases kept : filterTested state.testedPeers discovered with
      | nil => exact absurd kept nonempty
      | cons peer rest => simp [Task.advance, position, kept]
  | panic result position exited => simp [Task.advance, position, State.donePort, exited]
  | deliver result position live room =>
      simp [Task.advance, position, State.donePort, live, room]
  | _ => simp_all [Task.advance]

/-- Every step of a session. -/
inductive Transition (session : Session) (state : State) : Action → State → Prop where
  | coordinator {next : State} (rule : CoordinatorStep session.config state next) :
      Transition session state .coordinator next
  | task {index : Nat} {task : Task} {phase : TaskPhase} {effect : Effect}
      (found : state.tasks[index]? = some task)
      (rule : TaskStep session state task phase effect) :
      Transition session state (.task index)
        ((state.setTask index ⟨task.peer, phase⟩).emit index effect)
  | receive {message : CrawlerMessage} {rest : List CrawlerMessage}
      (isOpen : state.crawlOpen = true) (queued : state.crawl = message :: rest) :
      Transition session state .receive { state with crawl := rest }
  | hangUp (isOpen : state.crawlOpen = true) :
      Transition session state .hangUp { state with crawlOpen := false, crawl := [] }

theorem transition_of_step {session : Session} {state next : State} {action : Action}
    (stepped : (machine session).step state action = some next) :
    Transition session state action next := by
  change step session state action = some next at stepped
  cases action with
  | coordinator => exact .coordinator (coordinatorStep_of_step stepped)
  | task index =>
      simp only [step, stepTask] at stepped
      split at stepped
      next => contradiction
      next task found =>
        split at stepped
        next => contradiction
        next phase effect advanced =>
          cases stepped
          exact .task found (taskStep_of_advance advanced)
  | receive =>
      simp only [step] at stepped
      split at stepped
      next message rest isOpen queued => cases stepped; exact .receive isOpen queued
      next => contradiction
  | hangUp =>
      simp only [step] at stepped
      split at stepped
      next isOpen => cases stepped; exact .hangUp isOpen
      next => contradiction

theorem step_of_transition {session : Session} {state next : State} {action : Action}
    (transition : Transition session state action next) :
    (machine session).step state action = some next := by
  change step session state action = some next
  cases transition with
  | coordinator rule => exact stepCoordinator_of_rule rule
  | task found rule => simp [step, stepTask, found, advance_of_rule rule]
  | receive isOpen queued => simp [step, isOpen, queued]
  | hangUp isOpen => simp [step, isOpen]

/-- The invariant rule of a session, over transitions. -/
theorem run_invariant {session : Session} {Allowed : State → Action → Prop}
    (Holds : State → Prop)
    (preserved : ∀ {state next : State} {action : Action}, Allowed state action →
      Transition session state action next → Holds state → Holds next)
    {start final : State} {actions : List Action}
    (run : (machine session).Run Allowed start actions final) (initially : Holds start) :
    Holds final :=
  run.invariant Holds (fun allowed stepped => preserved allowed (transition_of_step stepped))
    initially

end BitcoinPeers.Crawler

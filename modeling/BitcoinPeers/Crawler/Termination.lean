import Mathlib.Algebra.BigOperators.Group.Finset.Basic
import Mathlib.Algebra.Order.BigOperators.Group.Finset
import BitcoinPeers.Crawler.Completeness
import BitcoinPeers.Crawler.Provenance

/-!
Contract: a crawl over finitely many peers ends.

Owns:
- the rank of a session over a finite set of peers: untested peers, running
  tasks, queued batches, queued results, queued messages and the coordinator's
  position, each with the work it can still cause;
- the proof that every step lowers the rank, except a poll that finds both
  channels empty;
- the invariant that the coordinator has something to wait for, and deadlock
  freedom from it;
- runs, under any condition on the schedule, to a state where it allows idle
  polls alone.

Does not own: fairness of the scheduler, or how long a network call takes.
-/

namespace BitcoinPeers.Crawler

open BitcoinPeers.Foundation

/-- The coordinator polls a channel of `select!` while both are empty. -/
def IdlePoll (state : State) (action : Action) : Prop :=
  action = .coordinator ∧ state.peerDiscovery = [] ∧ state.taskDone = [] ∧
    (state.coordinator = .pollDiscovery ∨ state.coordinator = .pollDone)

/-! ## The rank -/

/-- The work a queued batch can still cause, tasks of its peers apart. -/
def batchCost (peers : List Peer) : Nat := peers.length + 3

/-- The work left in `process()` after the connection answered. -/
def connectionCost (session : Session) (connection : PeerConnection) : Nat :=
  match connection.getPeers session.config.peerTimeout with
  | .ok discovered => discovered.length + 9
  | .error _ => 9

/-- The work a new task for the peer causes. -/
def startCost (session : Session) (peer : Peer) : Nat :=
  match session.connector session.config.peerTimeout peer with
  | .connected connection => connectionCost session connection + 3
  | .refused _ | .timedOut => 6

/-- The work a task can still cause: its own steps, the messages it sends and
the batch it discovers. -/
def Task.cost (session : Session) (task : Task) : Nat :=
  match task.phase with
  | .connecting => startCost session task.peer
  | .sendingNonListening => 5
  | .sendingListening connection => connectionCost session connection + 2
  | .gettingPeers connection => connectionCost session connection
  | .filtering discovered => discovered.length + 8
  | .sendingPeers filtered => batchCost filtered + 4
  | .finishing _ => 3
  | .finished _ | .panicked => 0

/-- The coordinator's own remaining steps in its current iteration, and the task
it is about to spawn. -/
def Coordinator.cost (session : Session) : Coordinator → Nat
  | .top => 1
  | .pollDiscovery | .pollDone | .exited _ => 0
  | .batch rest => rest.length + 2
  | .capacity peer rest => rest.length + 3 + startCost session peer

/-- One poll may fail before the poll of the other channel succeeds. -/
def State.pollCost (state : State) : Nat :=
  match state.coordinator with
  | .pollDiscovery => if state.peerDiscovery = [] then 1 else 0
  | .pollDone => if state.taskDone = [] then 1 else 0
  | _ => 0

/-- The work left over the peers in `reach`. -/
def State.work (session : Session) (reach : Finset Peer) (state : State) : Nat :=
  (∑ peer ∈ reach \ state.testedPeers, (startCost session peer + 1)) +
    (state.tasks.map (Task.cost session)).sum +
    (state.peerDiscovery.map batchCost).sum +
    state.coordinator.cost session +
    2 * state.taskDone.length +
    state.crawl.length

def State.rank (session : Session) (reach : Finset Peer) (state : State) : Nat :=
  2 * state.work session reach + state.pollCost

theorem State.pollCost_le (state : State) : state.pollCost ≤ 1 := by
  unfold State.pollCost
  split
  · split <;> simp
  · split <;> simp
  · simp

/-- Less work is a lower rank. -/
theorem rank_lt_of_work {session : Session} {reach : Finset Peer} {state next : State}
    (less : next.work session reach < state.work session reach) :
    next.rank session reach < state.rank session reach := by
  have poll := next.pollCost_le
  unfold State.rank
  omega

/-- Testing a peer of `reach` removes its cost from the untested peers. -/
theorem untested_insert (session : Session) {reach tested : Finset Peer} {peer : Peer}
    (member : peer ∈ reach) (fresh : peer ∉ tested) :
    (∑ other ∈ reach \ insert peer tested, (startCost session other + 1)) +
        (startCost session peer + 1) =
      ∑ other ∈ reach \ tested, (startCost session other + 1) := by
  have inside : peer ∈ reach \ tested := Finset.mem_sdiff.mpr ⟨member, fresh⟩
  rw [Finset.sdiff_insert]
  exact Finset.sum_erase_add _ _ inside

/-! ## Every counted step lowers the rank -/

/-- What a task step costs its task pays for what the step puts on a channel. -/
theorem TaskStep.cost_lt {session : Session} {state : State} {task : Task} {phase : TaskPhase}
    {effect : Effect} (rule : TaskStep session state task phase effect) :
    Task.cost session ⟨task.peer, phase⟩ + (effect.batches.map batchCost).sum +
        2 * effect.results.length + effect.messages.length < task.cost session := by
  cases rule with
  | connected connection position answer =>
      simp [Task.cost, position, startCost, answer, Effect.batches, Effect.results,
        Effect.messages]
  | refused position answer =>
      have start : startCost session task.peer = 6 := by
        unfold startCost
        split
        next connection answered => exact absurd answered (answer connection)
        next => rfl
        next => rfl
      simp [Task.cost, position, start, Effect.batches, Effect.results, Effect.messages]
  | crawlClosed position closed =>
      rcases position with position | ⟨connection, position⟩
      · simp [Task.cost, position, Effect.batches, Effect.results, Effect.messages]
      · have enough : 9 ≤ connectionCost session connection := by
          unfold connectionCost
          split <;> omega
        simp only [Task.cost, position, Effect.batches, Effect.results, Effect.messages,
          List.map_nil, List.sum_nil, List.length_nil]
        omega
  | gotPeers connection discovered position answer nonempty =>
      simp [Task.cost, position, connectionCost, answer, Effect.batches, Effect.results,
        Effect.messages]
  | gotNone connection position answer =>
      rcases answer with answer | ⟨error, answer⟩ <;>
        simp [Task.cost, position, connectionCost, answer, Effect.batches, Effect.results,
          Effect.messages]
  | filteredSome discovered position nonempty =>
      have shorter : (filterTested state.testedPeers discovered).length ≤ discovered.length :=
        List.length_filter_le _ _
      simp only [Task.cost, position, batchCost, Effect.batches, Effect.results,
        Effect.messages, List.map_nil, List.sum_nil, List.length_nil]
      omega
  | discover filtered position live =>
      simp only [Task.cost, position, Effect.batches, Effect.results, Effect.messages,
        List.map_cons, List.map_nil, List.sum_cons, List.sum_nil, List.length_nil]
      omega
  | _ => simp [Task.cost, Effect.batches, Effect.results, Effect.messages, *]

theorem work_taskStep {session : Session} (reach : Finset Peer) {state : State} {index : Nat}
    {task : Task} {phase : TaskPhase} {effect : Effect}
    (found : state.tasks[index]? = some task)
    (rule : TaskStep session state task phase effect) :
    ((state.setTask index ⟨task.peer, phase⟩).emit index effect).work session reach <
      state.work session reach := by
  have paid := rule.cost_lt
  have moved := sum_map_set (Task.cost session) found ⟨task.peer, phase⟩
  simp only [State.work, emit_testedPeers, emit_tasks, emit_peerDiscovery, emit_coordinator,
    emit_taskDone, emit_crawl, State.setTask, List.map_append, List.sum_append,
    List.length_append]
  omega

/-- A step of the coordinator lowers the work, or it is a poll that failed. -/
theorem work_coordinatorStep {session : Session} {reach : Finset Peer} {state next : State}
    (rule : CoordinatorStep session.config state next)
    (inside : ∀ peer ∈ state.coordinator.remaining, peer ∈ reach) :
    next.work session reach < state.work session reach ∨
      (next.work session reach = state.work session reach ∧
        next.peerDiscovery = state.peerDiscovery ∧ next.taskDone = state.taskDone ∧
        ((state.coordinator = .pollDiscovery ∧ next.coordinator = .pollDone ∧
            state.peerDiscovery = []) ∨
          (state.coordinator = .pollDone ∧ next.coordinator = .pollDiscovery ∧
            state.taskDone = []))) := by
  cases rule with
  | discoveryPending position empty =>
      refine .inr ⟨?_, rfl, rfl, .inl ⟨position, rfl, empty⟩⟩
      simp only [State.work, Coordinator.cost, position]
  | donePending position empty =>
      refine .inr ⟨?_, rfl, rfl, .inr ⟨position, rfl, empty⟩⟩
      simp only [State.work, Coordinator.cost, position]
  | insertPeer peer rest position fresh =>
      have member := inside peer (by rw [position]; exact List.mem_cons_self)
      have removed := untested_insert session member fresh
      left
      simp only [State.work, Coordinator.cost, position, List.length_cons]
      omega
  | _ =>
      left
      simp only [State.work, Coordinator.cost, batchCost, List.length_cons, List.map_cons,
        List.map_append, List.map_nil, List.sum_cons, List.sum_append, List.sum_nil,
        Task.cost, *]
      omega

/-- Every step lowers the rank, except an idle poll, which keeps it. -/
theorem rank_transition {session : Session} {reach : Finset Peer} {state next : State}
    {action : Action} (kept : KeepsReceiver state action)
    (transition : Transition session state action next)
    (inside : ∀ peer ∈ state.coordinator.remaining, peer ∈ reach) :
    next.rank session reach < state.rank session reach ∨
      (next.rank session reach = state.rank session reach ∧ IdlePoll state action) := by
  cases transition with
  | coordinator rule =>
      rcases work_coordinatorStep rule inside with
        less | ⟨same, discovery, done, ⟨position, after, empty⟩ | ⟨position, after, empty⟩⟩
      · exact .inl (rank_lt_of_work less)
      · by_cases idle : state.taskDone = []
        · right
          refine ⟨?_, rfl, empty, idle, .inl position⟩
          simp [State.rank, State.pollCost, position, after, same, done, empty, idle]
        · left
          simp [State.rank, State.pollCost, position, after, same, done, empty, idle]
      · by_cases idle : state.peerDiscovery = []
        · right
          refine ⟨?_, rfl, idle, empty, .inr position⟩
          simp [State.rank, State.pollCost, position, after, same, discovery, empty, idle]
        · left
          simp [State.rank, State.pollCost, position, after, same, discovery, empty, idle]
  | task found rule => exact .inl (rank_lt_of_work (work_taskStep reach found rule))
  | receive isOpen queued =>
      left
      apply rank_lt_of_work
      simp only [State.work, queued, List.length_cons]
      omega
  | hangUp isOpen => exact absurd rfl kept

/-! ## The coordinator has something to wait for -/

/-- Inside the loop a task is unfinished, or the seed has still to be looked
at. -/
structure Occupied (seed : Peer) (state : State) : Prop where
  receiver : state.crawlOpen = true
  looping : state.coordinator = .top ∨ state.coordinator = .pollDiscovery →
    0 < state.activeTasks ∨ state.testedPeers = ∅ ∧ state.peerDiscovery = [[seed]]
  polled : state.coordinator = .pollDone → 0 < state.activeTasks
  entering : ∀ rest, state.coordinator = .batch rest →
    0 < state.activeTasks ∨ state.testedPeers = ∅ ∧ rest = [seed]
  exhausted : ∀ reason, state.coordinator = .exited reason → reason = .exhausted

theorem occupied_coordinate {config : SessionConfig} (seed : Peer)
    (capacity : 1 ≤ config.maxConcurrentTasks) : Occupied seed (coordinate config seed) := by
  have positive : config.maxConcurrentTasks ≠ 0 := by omega
  simp only [coordinate, positive, if_false]
  exact ⟨rfl, fun _ => .inr ⟨rfl, rfl⟩, nofun, nofun, nofun⟩

theorem occupied_coordinatorStep {config : SessionConfig} {seed : Peer} {state next : State}
    (rule : CoordinatorStep config state next) (occupied : Occupied seed state) :
    Occupied seed next := by
  have receiver := occupied.receiver
  cases rule with
  | hangUp position closed =>
      rw [receiver] at closed
      cases closed
  | proceed position isOpen =>
      exact ⟨receiver, fun _ => occupied.looping (.inl position), nofun, nofun, nofun⟩
  | take peers rest position queued =>
      refine ⟨receiver, nofun, nofun, fun entries here => ?_, nofun⟩
      cases here
      rcases occupied.looping (.inr position) with busy | ⟨fresh, first⟩
      · exact .inl busy
      · rw [queued] at first
        cases first
        exact .inr ⟨fresh, rfl⟩
  | discoveryPending position empty =>
      refine ⟨receiver, nofun, fun _ => ?_, nofun, nofun⟩
      rcases occupied.looping (.inr position) with busy | ⟨-, first⟩
      · exact busy
      · rw [empty] at first
        cases first
  | exhaust result rest position queued last =>
      exact ⟨receiver, nofun, nofun, nofun, fun reason here => by cases here; rfl⟩
  | complete result rest position queued more =>
      exact ⟨receiver, fun _ => .inl (Nat.pos_of_ne_zero more), nofun, nofun, nofun⟩
  | donePending position empty =>
      exact ⟨receiver, fun _ => .inl (occupied.polled position), nofun, nofun, nofun⟩
  | batchEnd position =>
      refine ⟨receiver, fun _ => ?_, nofun, nofun, nofun⟩
      rcases occupied.entering [] position with busy | ⟨-, first⟩
      · exact .inl busy
      · cases first
  | duplicate peer rest position known =>
      refine ⟨receiver, nofun, nofun, fun entries here => ?_, nofun⟩
      rcases occupied.entering _ position with busy | ⟨fresh, -⟩
      · exact .inl busy
      · rw [fresh] at known
        cases known
  | insertPeer peer rest position fresh => exact ⟨receiver, nofun, nofun, nofun, nofun⟩
  | reap peer rest result done position atCapacity queued =>
      refine ⟨receiver, ?_, ?_, ?_, ?_⟩ <;> simp [position]
  | spawn peer rest position below =>
      exact ⟨receiver, nofun, nofun, fun entries here => .inl (Nat.succ_pos _), nofun⟩

theorem occupied_transition {session : Session} {seed : Peer} {state next : State}
    {action : Action} (kept : KeepsReceiver state action)
    (transition : Transition session state action next)
    (accounting : Accounting session.config state) (occupied : Occupied seed state) :
    Occupied seed next := by
  cases transition with
  | coordinator rule => exact occupied_coordinatorStep rule occupied
  | @task index task phase effect found rule =>
      have running := runningTasks_pos found rule.was_running
      have busy : state.coordinator.isExited = false → 0 < state.activeTasks := by
        intro live
        have balance := accounting.counter live
        omega
      refine ⟨?_, fun here => ?_, fun here => ?_, fun rest here => ?_, fun reason here => ?_⟩
      · simpa [State.setTask] using occupied.receiver
      · rw [emit_coordinator] at here
        rw [emit_activeTasks]
        left
        apply busy
        rcases here with here | here <;> rw [show state.coordinator = _ from here] <;> rfl
      · rw [emit_coordinator] at here
        rw [emit_activeTasks]
        exact occupied.polled here
      · rw [emit_coordinator] at here
        rw [emit_activeTasks]
        left
        apply busy
        rw [show state.coordinator = _ from here]
        rfl
      · rw [emit_coordinator] at here
        exact occupied.exhausted reason here
  | receive isOpen queued =>
      exact ⟨occupied.receiver, occupied.looping, occupied.polled, occupied.entering,
        occupied.exhausted⟩
  | hangUp isOpen => exact absurd rfl kept

/-- A session whose receiver is kept leaves its loop as exhausted. -/
theorem Occupied.exit {seed : Peer} {state : State} (occupied : Occupied seed state)
    (exited : state.coordinator.isExited = true) : state.coordinator = .exited .exhausted := by
  cases position : state.coordinator with
  | exited reason => rw [occupied.exhausted reason position]
  | _ => simp [position, Coordinator.isExited] at exited

/-! ## Deadlock freedom -/

/-- A running task can move, or it waits for the caller to take a message. -/
theorem running_task_moves {session : Session} {state : State}
    (accounting : Accounting session.config state) (isOpen : state.crawlOpen = true)
    (live : state.coordinator.isExited = false) (running : 0 < state.runningTasks) :
    (∃ index next, (machine session).step state (.task index) = some next) ∨
      ∃ next, (machine session).step state .receive = some next := by
  obtain ⟨task, member, runs⟩ := List.countP_pos_iff.mp running
  obtain ⟨index, inBounds, here⟩ := List.mem_iff_getElem.mp member
  have found : state.tasks[index]? = some task := by
    rw [List.getElem?_eq_getElem inBounds, here]
  by_cases full : state.crawlPort = .full
  · right
    cases queued : state.crawl with
    | nil => simp [State.crawlPort, isOpen, queued, CRAWL_CHANNEL_CAPACITY] at full
    | cons message rest =>
        exact ⟨{ state with crawl := rest }, by simp [machine, step, isOpen, queued]⟩
  · left
    have crawlReady : state.crawlPort = .ready := by
      revert full
      simp only [State.crawlPort, isOpen, if_true]
      split <;> simp
    have doneReady : state.donePort session.config = .ready := by
      have room := accounting.taskDone_room live member runs
      simp [State.donePort, live, room]
    suffices moves : ∃ outcome, task.advance session state = some outcome by
      obtain ⟨⟨phase, effect⟩, advanced⟩ := moves
      exact ⟨index, (state.setTask index ⟨task.peer, phase⟩).emit index effect,
        by simp [machine, step, stepTask, found, advanced]⟩
    unfold Task.advance
    split
    · split <;> exact ⟨_, rfl⟩
    · simp [crawlReady]
    · simp [crawlReady]
    · split <;> exact ⟨_, rfl⟩
    · split <;> exact ⟨_, rfl⟩
    · split <;> exact ⟨_, rfl⟩
    · simp [doneReady]
    next position => simp [position, TaskPhase.running] at runs
    next position => simp [position, TaskPhase.running] at runs

/-- Inside the loop the coordinator has a step, unless it waits at capacity for a
result. -/
theorem exists_coordinatorStep {config : SessionConfig} {state : State}
    (isOpen : state.crawlOpen = true) (live : state.coordinator.isExited = false) :
    (∃ next, CoordinatorStep config state next) ∨
      config.maxConcurrentTasks ≤ state.activeTasks ∧ state.taskDone = [] := by
  cases position : state.coordinator with
  | top => exact .inl ⟨_, .proceed position isOpen⟩
  | pollDiscovery =>
      left
      cases queued : state.peerDiscovery with
      | nil => exact ⟨_, .discoveryPending position queued⟩
      | cons peers rest => exact ⟨_, .take peers rest position queued⟩
  | pollDone =>
      left
      cases queued : state.taskDone with
      | nil => exact ⟨_, .donePending position queued⟩
      | cons result rest =>
          by_cases last : state.activeTasks - 1 = 0
          · exact ⟨_, .exhaust result rest position queued last⟩
          · exact ⟨_, .complete result rest position queued last⟩
  | batch rest =>
      left
      cases rest with
      | nil => exact ⟨_, .batchEnd position⟩
      | cons peer rest =>
          by_cases known : peer ∈ state.testedPeers
          · exact ⟨_, .duplicate peer rest position known⟩
          · exact ⟨_, .insertPeer peer rest position known⟩
  | capacity peer rest =>
      by_cases below : state.activeTasks < config.maxConcurrentTasks
      · exact .inl ⟨_, .spawn peer rest position below⟩
      · have atCapacity : config.maxConcurrentTasks ≤ state.activeTasks := by omega
        cases queued : state.taskDone with
        | nil => exact .inr ⟨atCapacity, rfl⟩
        | cons result done =>
            exact .inl ⟨_, .reap peer rest result done position atCapacity queued⟩
  | exited reason =>
      rw [position] at live
      cases live

/-- A result that would be late can wait: the coordinator's poll comes first, is
orderly and is not idle. -/
theorem LateDelivery.gives_way {state : State} {action : Action} (late : LateDelivery state action)
    (session : Session) :
    OrderlyStep state .coordinator ∧ ¬ IdlePoll state .coordinator ∧
      ∃ next, (machine session).step state .coordinator = some next := by
  obtain ⟨polled, -, queued, -⟩ := late
  refine ⟨⟨nofun, fun other => ?_⟩, fun idle => queued idle.2.1, ?_⟩
  · obtain ⟨-, -, -, index, task, result, same, -⟩ := other
    cases same
  · suffices rule : ∃ next, CoordinatorStep session.config state next by
      obtain ⟨next, rule⟩ := rule
      exact ⟨next, step_of_transition (.coordinator rule)⟩
    cases done : state.taskDone with
    | nil => exact ⟨_, .donePending polled done⟩
    | cons result rest =>
        by_cases last : state.activeTasks - 1 = 0
        · exact ⟨_, .exhaust result rest polled done last⟩
        · exact ⟨_, .complete result rest polled done last⟩

/-- In `select!` with no batch queued a task is in flight. -/
theorem Occupied.busy {seed : Peer} {state : State} (occupied : Occupied seed state)
    (selecting : state.coordinator = .pollDiscovery ∨ state.coordinator = .pollDone)
    (empty : state.peerDiscovery = []) : 0 < state.activeTasks := by
  rcases selecting with position | position
  · rcases occupied.looping (.inr position) with busy | ⟨-, first⟩
    · exact busy
    · rw [empty] at first
      cases first
  · exact occupied.polled position

/-- The coordinator can move unless it waits for a task that runs. -/
theorem coordinator_moves {session : Session} {seed : Peer} {state : State}
    (capacity : 1 ≤ session.config.maxConcurrentTasks)
    (accounting : Accounting session.config state) (occupied : Occupied seed state)
    (live : state.coordinator.isExited = false) :
    (∃ next, (machine session).step state .coordinator = some next ∧
        ¬ IdlePoll state .coordinator) ∨ 0 < state.runningTasks := by
  have balance := accounting.counter live
  have running : 0 < state.activeTasks → state.taskDone = [] → 0 < state.runningTasks := by
    intro busy empty
    rw [empty, List.length_nil] at balance
    omega
  rcases exists_coordinatorStep occupied.receiver live with
    ⟨next, rule⟩ | ⟨atCapacity, empty⟩
  · by_cases idle : IdlePoll state .coordinator
    · obtain ⟨-, unsent, unfinished, selecting⟩ := idle
      exact .inr (running (occupied.busy selecting unsent) unfinished)
    · exact .inl ⟨next, step_of_transition (.coordinator rule), idle⟩
  · exact .inr (running (Nat.lt_of_lt_of_le capacity atCapacity) empty)

/-- Before the exit something other than an idle poll can happen. -/
theorem Occupied.moves {session : Session} {seed : Peer} {state : State}
    (occupied : Occupied seed state) (accounting : Accounting session.config state)
    (capacity : 1 ≤ session.config.maxConcurrentTasks)
    (live : state.coordinator.isExited = false) :
    ∃ action next, KeepsReceiver state action ∧ ¬ IdlePoll state action ∧
      (machine session).step state action = some next := by
  rcases coordinator_moves capacity accounting occupied live with
    ⟨next, stepped, counted⟩ | running
  · exact ⟨.coordinator, next, nofun, counted, stepped⟩
  · rcases running_task_moves accounting occupied.receiver live running with
      ⟨index, next, stepped⟩ | ⟨next, stepped⟩
    · exact ⟨.task index, next, nofun, fun idle => (nomatch idle.1), stepped⟩
    · exact ⟨.receive, next, nofun, fun idle => (nomatch idle.1), stepped⟩

theorem occupied_run {session : Session} {seed : Peer}
    (capacity : 1 ≤ session.config.maxConcurrentTasks) {actions : List Action} {state : State}
    (run : (machine session).Run KeepsReceiver (coordinate session.config seed) actions state) :
    Occupied seed state :=
  (run_invariant (fun state => Accounting session.config state ∧ Occupied seed state)
    (fun kept transition holds => ⟨accounting_transition transition holds.1,
      occupied_transition kept transition holds.1 holds.2⟩) run
    ⟨accounting_coordinate session.config seed, occupied_coordinate seed capacity⟩).2

/-! ## Termination -/

/-- The invariants that the rank and deadlock freedom rest on. -/
structure Progress (session : Session) (reach : Finset Peer) (seed : Peer) (state : State) :
    Prop where
  accounting : Accounting session.config state
  history : History state
  sourced : Sourced session (· ∈ reach) state
  occupied : Occupied seed state

theorem progress_coordinate {session : Session} {reach : Finset Peer} {seed : Peer}
    (known : seed ∈ reach) (capacity : 1 ≤ session.config.maxConcurrentTasks) :
    Progress session reach seed (coordinate session.config seed) :=
  ⟨accounting_coordinate session.config seed, history_coordinate session.config seed,
    sourced_coordinate known, occupied_coordinate seed capacity⟩

theorem progress_transition {session : Session} {reach : Finset Peer} {seed : Peer}
    (inherited : Inherited session (· ∈ reach)) {state next : State} {action : Action}
    (kept : KeepsReceiver state action) (transition : Transition session state action next)
    (progress : Progress session reach seed state) : Progress session reach seed next :=
  ⟨accounting_transition transition progress.accounting,
    history_transition transition progress.history,
    sourced_transition inherited transition progress.history progress.sourced,
    occupied_transition kept transition progress.accounting progress.occupied⟩

/-- From every state an invariant that keeps the allowed steps over finitely many
peers leads to a state where idle polls alone are allowed. -/
theorem exists_rest (session : Session) (reach : Finset Peer) (Allowed : State → Action → Prop)
    (Holds : State → Prop)
    (kept : ∀ state action, Allowed state action → KeepsReceiver state action)
    (preserved : ∀ {state next : State} {action : Action}, Allowed state action →
      Transition session state action next → Holds state → Holds next)
    (inside : ∀ {state : State} {action : Action}, Allowed state action → Holds state →
      ∀ peer ∈ state.coordinator.remaining, peer ∈ reach)
    {start : State} (initially : Holds start) :
    ∃ actions final, (machine session).Run Allowed start actions final ∧ Holds final ∧
      ∀ action next, Allowed final action → (machine session).step final action = some next →
        IdlePoll final action := by
  let Works := fun state action => Allowed state action ∧ ¬ IdlePoll state action
  obtain ⟨actions, final, run, stuck⟩ : ∃ actions final,
      (machine session).Run Works start actions final ∧
        ∀ action, Works final action → (machine session).step final action = none :=
    Machine.Run.exists_maximal (State.rank session reach)
      (fun works stepped => preserved works.1 (transition_of_step stepped))
      (fun works holds stepped =>
        (rank_transition (kept _ _ works.1) (transition_of_step stepped)
          (inside works.1 holds)).resolve_right fun idle => works.2 idle.2)
      initially
  have allowed : (machine session).Run Allowed start actions final :=
    run.mono fun _ _ works => works.1
  refine ⟨actions, final, allowed, run_invariant Holds preserved allowed initially, ?_⟩
  intro action next permitted stepped
  by_contra counted
  rw [stuck action ⟨permitted, counted⟩] at stepped
  cases stepped

/-- A crawl whose peers all lie in a finite set: an infinite run consists of
idle polls from some point on; every reachable state before the exit has an
enabled step that is not an idle poll; a state without one is the exhausted
exit; and the coordinator never waits in `select!` with nothing in flight and
nothing queued. -/
theorem crawl_terminates (session : Session) (reach : Finset Peer) (seed : Peer)
    (known : seed ∈ reach) (inherited : Inherited session (· ∈ reach))
    (capacity : 1 ≤ session.config.maxConcurrentTasks) :
    (∀ run : (machine session).InfiniteRun KeepsReceiver,
        run.state 0 = coordinate session.config seed →
        ∃ bound, ∀ index, bound ≤ index → IdlePoll (run.state index) (run.action index)) ∧
      ∀ actions state,
        (machine session).Run KeepsReceiver (coordinate session.config seed) actions state →
        (state.coordinator.isExited = false →
          ∃ action next, KeepsReceiver state action ∧ ¬ IdlePoll state action ∧
            (machine session).step state action = some next) ∧
        ((∀ action next, KeepsReceiver state action →
            (machine session).step state action = some next → IdlePoll state action) →
          state.coordinator = .exited .exhausted) ∧
        (state.coordinator = .pollDiscovery ∨ state.coordinator = .pollDone →
          ¬ (state.activeTasks = 0 ∧ state.peerDiscovery = [])) := by
  have initially : Progress session reach seed (coordinate session.config seed) :=
    progress_coordinate known capacity
  constructor
  · intro run start
    have holds : ∀ index, Progress session reach seed (run.state index) :=
      run.invariant (Progress session reach seed)
        (fun kept stepped => progress_transition inherited kept (transition_of_step stepped))
        (by rw [start]; exact initially)
    have ranked : ∀ {state next : State} {action : Action}, KeepsReceiver state action →
        Progress session reach seed state → (machine session).step state action = some next →
        next.rank session reach < state.rank session reach ∨
          (next.rank session reach = state.rank session reach ∧ IdlePoll state action) := by
      intro state next action kept progress stepped
      exact rank_transition kept (transition_of_step stepped) fun peer member =>
        progress.sourced.remaining progress.history member
    obtain ⟨bound, settled⟩ :=
      run.eventually_not_counted (fun state action => ¬ IdlePoll state action)
        (State.rank session reach) holds
        (fun kept progress stepped counted =>
          (ranked kept progress stepped).resolve_right fun idle => counted idle.2)
        (fun kept progress stepped =>
          (ranked kept progress stepped).elim Nat.le_of_lt fun idle => idle.1.le)
    exact ⟨bound, fun index after => not_not.mp (settled index after)⟩
  · intro actions state run
    have progress : Progress session reach seed state :=
      run_invariant (Progress session reach seed)
        (fun kept transition => progress_transition inherited kept transition) run initially
    have moves := progress.occupied.moves progress.accounting capacity
    refine ⟨moves, fun stuck => ?_, fun selecting idle => ?_⟩
    · apply progress.occupied.exit
      by_contra live
      obtain ⟨action, next, kept, counted, stepped⟩ := moves (by simpa using live)
      exact counted (stuck action next kept stepped)
    · have busy := progress.occupied.busy selecting idle.2
      omega

/-- The peers of `pairSession`. -/
def pairReach : Finset Peer := {pairPeer 1, pairPeer 2}

theorem inherited_pair : Inherited pairSession (· ∈ pairReach) := by
  intro peer _ connection discovered answer got other member
  cases answer
  change (if peer = pairPeer 1 then Except.ok [pairPeer 2] else Except.ok []) =
    Except.ok discovered at got
  split at got
  next =>
    cases got
    rw [List.mem_singleton.mp member]
    decide
  next =>
    cases got
    cases member

/-- The crawl of `pairSession`, run until only idle polls are left, is exhausted. -/
theorem crawl_terminates_pair :
    pairPeer 1 ∈ pairReach ∧ 1 ≤ pairSession.config.maxConcurrentTasks ∧
      ∃ actions final, (machine pairSession).Run KeepsReceiver pairStart actions final ∧
        (∀ action next, KeepsReceiver final action →
          (machine pairSession).step final action = some next → IdlePoll final action) ∧
        final.coordinator = .exited .exhausted := by
  refine ⟨by decide, by decide, ?_⟩
  obtain ⟨actions, final, run, -, stuck⟩ := exists_rest pairSession pairReach KeepsReceiver
    (Progress pairSession pairReach (pairPeer 1))
    (fun _ _ kept => kept)
    (fun kept transition => progress_transition inherited_pair kept transition)
    (fun _ progress _ member => progress.sourced.remaining progress.history member)
    (progress_coordinate (by decide) (by decide))
  exact ⟨actions, final, run, stuck,
    ((crawl_terminates pairSession pairReach (pairPeer 1) (by decide) inherited_pair
      (by decide)).2 actions final run).2.1 stuck⟩

end BitcoinPeers.Crawler

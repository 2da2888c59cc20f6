import BitcoinPeers.Crawler.Transitions

/-!
Contract: the in-flight counter of `coordinate()`.

Owns the accounting invariant of every session: before the exit the counter is
the number of tasks that have not sent their result plus the number of queued
results, it never passes the configured maximum, and an exhausted session has
no task left. The concurrency bound of the crawler is read off it.
-/

namespace BitcoinPeers.Crawler

open BitcoinPeers.Foundation

/-! ## Frame of a task step -/

section Frame

variable (state : State) (index : Nat) (task : Task) (effect : Effect)

@[simp] theorem emit_coordinator : (state.emit index effect).coordinator = state.coordinator := by
  cases effect <;> rfl

@[simp] theorem emit_activeTasks : (state.emit index effect).activeTasks = state.activeTasks := by
  cases effect <;> rfl

@[simp] theorem emit_testedPeers : (state.emit index effect).testedPeers = state.testedPeers := by
  cases effect <;> rfl

@[simp] theorem emit_tasks : (state.emit index effect).tasks = state.tasks := by
  cases effect <;> rfl

@[simp] theorem emit_crawlOpen : (state.emit index effect).crawlOpen = state.crawlOpen := by
  cases effect <;> rfl

@[simp] theorem emit_taken : (state.emit index effect).taken = state.taken := by
  cases effect <;> rfl

@[simp] theorem emit_runningTasks :
    (state.emit index effect).runningTasks = state.runningTasks := by
  simp [State.runningTasks]

@[simp] theorem emit_spawned : (state.emit index effect).spawned = state.spawned := by
  simp [State.spawned]

@[simp] theorem emit_examined : (state.emit index effect).examined = state.examined := by
  simp [State.examined]

/-- The results a task step puts on the completion channel. -/
def Effect.results : Effect → List TaskResult
  | .deliver result => [result]
  | _ => []

@[simp] theorem emit_taskDone :
    (state.emit index effect).taskDone = state.taskDone ++ effect.results := by
  cases effect <;> simp [State.emit, Effect.results]

/-- The batches a task step puts on the discovery channel. -/
def Effect.batches : Effect → List (List Peer)
  | .discover peers => [peers]
  | _ => []

@[simp] theorem emit_peerDiscovery :
    (state.emit index effect).peerDiscovery = state.peerDiscovery ++ effect.batches := by
  cases effect <;> simp [State.emit, Effect.batches]

@[simp] theorem emit_sent :
    (state.emit index effect).sent = state.sent ++ effect.batches := by
  cases effect <;> simp [State.emit, Effect.batches]

/-- The messages a task step puts on the crawl channel. -/
def Effect.messages : Effect → List CrawlerMessage
  | .report message => [message]
  | _ => []

@[simp] theorem emit_crawl :
    (state.emit index effect).crawl = state.crawl ++ effect.messages := by
  cases effect <;> simp [State.emit, Effect.messages]

@[simp] theorem emit_log :
    (state.emit index effect).log = state.log ++ effect.messages.map (index, ·) := by
  cases effect <;> simp [State.emit, Effect.messages]

end Frame

/-- Moving one task changes the number of running tasks by that task only. -/
theorem runningTasks_setTask {state : State} {index : Nat} {task : Task}
    (found : state.tasks[index]? = some task) (phase : TaskPhase) :
    (state.setTask index ⟨task.peer, phase⟩).runningTasks +
        (if task.phase.running then 1 else 0) =
      state.runningTasks + (if phase.running then 1 else 0) := by
  obtain ⟨inBounds, here⟩ := List.getElem?_eq_some_iff.mp found
  have occurs : (if task.phase.running then 1 else 0) ≤
      state.tasks.countP fun task => task.phase.running := by
    rw [← here]
    exact List.boole_getElem_le_countP (p := fun task => task.phase.running) inBounds
  simp only [State.runningTasks, State.setTask, List.countP_set inBounds, here]
  omega

theorem runningTasks_pos {state : State} {index : Nat} {task : Task}
    (found : state.tasks[index]? = some task) (running : task.phase.running = true) :
    0 < state.runningTasks :=
  List.countP_pos_iff.mpr ⟨task, List.mem_of_getElem? found, running⟩

/-! ## What a task step does to the counter -/

theorem TaskStep.was_running {session : Session} {state : State} {task : Task}
    {phase : TaskPhase} {effect : Effect} (rule : TaskStep session state task phase effect) :
    task.phase.running = true := by
  cases rule with
  | crawlClosed position =>
      rcases position with position | ⟨connection, position⟩ <;> rw [position] <;> rfl
  | _ => simp only [TaskPhase.running, *]

/-- A task step leaves the task running, or panics after the exit, or delivers
its result before it. -/
theorem TaskStep.running_cases {session : Session} {state : State} {task : Task}
    {phase : TaskPhase} {effect : Effect} (rule : TaskStep session state task phase effect) :
    (phase.running = true ∧ effect.results = []) ∨
      (phase = .panicked ∧ effect = .internal ∧ state.coordinator.isExited = true) ∨
      (∃ result, phase = .finished result ∧ effect = .deliver result ∧
        state.coordinator.isExited = false ∧
        state.taskDone.length < session.config.maxConcurrentTasks) := by
  cases rule with
  | panic result position exited => exact .inr (.inl ⟨rfl, rfl, exited⟩)
  | deliver result position live room => exact .inr (.inr ⟨result, rfl, rfl, live, room⟩)
  | _ => exact .inl ⟨rfl, rfl⟩

/-! ## The accounting invariant -/

structure Accounting (config : SessionConfig) (state : State) : Prop where
  counter : state.coordinator.isExited = false →
    state.activeTasks = state.runningTasks + state.taskDone.length
  bound : state.activeTasks ≤ config.maxConcurrentTasks
  drained : state.coordinator = .exited .exhausted →
    state.runningTasks = 0 ∧ state.taskDone = []

theorem accounting_coordinate (config : SessionConfig) (seed : Peer) :
    Accounting config (coordinate config seed) := by
  unfold coordinate
  split
  · exact ⟨fun _ => rfl, Nat.zero_le _, fun exited => by cases exited⟩
  · exact ⟨fun _ => rfl, Nat.zero_le _, fun exited => by cases exited⟩

theorem accounting_coordinatorStep {config : SessionConfig} {state next : State}
    (rule : CoordinatorStep config state next) (accounting : Accounting config state) :
    Accounting config next := by
  have counter := accounting.counter
  have bound := accounting.bound
  cases rule with
  | hangUp position closed =>
      exact ⟨fun live => (by cases live), bound, fun exited => (by cases exited)⟩
  | exhaust result rest position queued last =>
      have balance := counter (by rw [position]; rfl)
      rw [queued, List.length_cons] at balance
      refine ⟨fun live => (by cases live), (by simp only; omega), fun _ => ⟨?_, ?_⟩⟩
      · change state.runningTasks = 0
        omega
      · change rest = []
        exact List.eq_nil_of_length_eq_zero (by omega)
  | complete result rest position queued more =>
      have balance := counter (by rw [position]; rfl)
      rw [queued, List.length_cons] at balance
      refine ⟨fun _ => ?_, (by simp only; omega), fun exited => by cases exited⟩
      change state.activeTasks - 1 = state.runningTasks + rest.length
      omega
  | reap peer rest result done position atCapacity queued =>
      have balance := counter (by rw [position]; rfl)
      rw [queued, List.length_cons] at balance
      refine ⟨fun _ => ?_, (by simp only; omega), fun exited => ?_⟩
      · change state.activeTasks - 1 = state.runningTasks + done.length
        omega
      · rw [position] at exited
        cases exited
  | spawn peer rest position below =>
      have balance := counter (by rw [position]; rfl)
      refine ⟨fun _ => ?_, below, fun exited => by cases exited⟩
      simp only [State.runningTasks, List.countP_append, List.countP_singleton,
        TaskPhase.running, if_true] at balance ⊢
      omega
  | _ =>
      refine ⟨fun _ => counter ?_, bound, fun exited => by cases exited⟩
      simp only [Coordinator.isExited, *]

theorem accounting_taskStep {session : Session} {state : State} {index : Nat} {task : Task}
    {phase : TaskPhase} {effect : Effect} (found : state.tasks[index]? = some task)
    (rule : TaskStep session state task phase effect)
    (accounting : Accounting session.config state) :
    Accounting session.config
      ((state.setTask index ⟨task.peer, phase⟩).emit index effect) := by
  have moved := runningTasks_setTask found phase
  rw [rule.was_running, if_pos rfl] at moved
  have counter : state.coordinator.isExited = false →
      state.activeTasks = state.runningTasks + state.taskDone.length := accounting.counter
  have exhausted : state.coordinator ≠ .exited .exhausted := by
    intro exited
    have none := (accounting.drained exited).1
    have some := runningTasks_pos found rule.was_running
    omega
  refine ⟨fun live => ?_, by simpa [State.setTask] using accounting.bound, fun exited => ?_⟩
  · simp only [emit_coordinator, emit_activeTasks, emit_runningTasks, emit_taskDone,
      List.length_append] at live ⊢
    have balance := counter live
    change state.activeTasks = _ + (state.taskDone.length + effect.results.length)
    rcases rule.running_cases with
      ⟨running, silent⟩ | ⟨rfl, rfl, exited⟩ | ⟨result, rfl, rfl, -, -⟩
    · rw [running, if_pos rfl] at moved
      rw [silent, List.length_nil]
      omega
    · rw [show state.coordinator.isExited = false from live] at exited
      cases exited
    · simp only [TaskPhase.running, Effect.results, List.length_singleton] at moved ⊢
      simp only [Bool.false_eq_true, if_false] at moved
      omega
  · rw [emit_coordinator] at exited
    exact absurd exited exhausted

theorem accounting_transition {session : Session} {state next : State} {action : Action}
    (transition : Transition session state action next)
    (accounting : Accounting session.config state) : Accounting session.config next := by
  cases transition with
  | coordinator rule => exact accounting_coordinatorStep rule accounting
  | task found rule => exact accounting_taskStep found rule accounting
  | receive isOpen queued => exact ⟨accounting.counter, accounting.bound, accounting.drained⟩
  | hangUp isOpen => exact ⟨accounting.counter, accounting.bound, accounting.drained⟩

theorem accounting_run {session : Session} {Allowed : State → Action → Prop}
    {seed : Peer} {actions : List Action} {state : State}
    (run : (machine session).Run Allowed (coordinate session.config seed) actions state) :
    Accounting session.config state :=
  run_invariant (Accounting session.config)
    (fun _ transition => accounting_transition transition) run
    (accounting_coordinate session.config seed)

/-! ## The concurrency bound -/

/-- A step of the coordinator that executes `active_tasks -= 1`: the completion
arm of `select!`, or the receive inside the capacity wait. -/
def Decrements (config : SessionConfig) (state : State) : Prop :=
  state.taskDone ≠ [] ∧
    (state.coordinator = .pollDone ∨
      ∃ peer rest, state.coordinator = .capacity peer rest ∧
        config.maxConcurrentTasks ≤ state.activeTasks)

/-- A decrement before the exit finds a positive counter. -/
theorem Accounting.activeTasks_pos {config : SessionConfig} {state : State}
    (accounting : Accounting config state) (decrements : Decrements config state) :
    0 < state.activeTasks := by
  obtain ⟨queued, position⟩ := decrements
  have live : state.coordinator.isExited = false := by
    rcases position with position | ⟨peer, rest, position, -⟩ <;> rw [position] <;> rfl
  have balance := accounting.counter live
  have some : 0 < state.taskDone.length := List.length_pos_of_ne_nil queued
  omega

/-- A task that is about to send its result before the exit finds room for it. -/
theorem Accounting.taskDone_room {config : SessionConfig} {state : State}
    (accounting : Accounting config state) (live : state.coordinator.isExited = false)
    {task : Task} (member : task ∈ state.tasks) (running : task.phase.running = true) :
    state.taskDone.length < config.maxConcurrentTasks := by
  have balance := accounting.counter live
  have some : 0 < state.runningTasks := List.countP_pos_iff.mpr ⟨task, member, running⟩
  have bound := accounting.bound
  omega

/-- In every reachable state before the exit: the counter is the number of
spawned tasks whose result has not been received, it is at most the maximum, no
decrement is executed at zero, and the completion channel has room for every
result that is about to be sent. -/
theorem concurrency_bound (session : Session) (seed : Peer) {Allowed : State → Action → Prop}
    {actions : List Action} {state : State}
    (run : (machine session).Run Allowed (coordinate session.config seed) actions state)
    (live : state.coordinator.isExited = false) :
    state.activeTasks = state.runningTasks + state.taskDone.length ∧
      state.activeTasks ≤ session.config.maxConcurrentTasks ∧
      (Decrements session.config state → 0 < state.activeTasks) ∧
      state.taskDone.length ≤ session.config.maxConcurrentTasks ∧
      (∀ task ∈ state.tasks, ∀ result, task.phase = .finishing result →
        state.donePort session.config = .ready) := by
  have accounting := accounting_run run
  have balance := accounting.counter live
  have bound := accounting.bound
  refine ⟨balance, bound, accounting.activeTasks_pos, by omega, ?_⟩
  intro task member result position
  have room := accounting.taskDone_room live member (by rw [position]; rfl)
  simp [State.donePort, live, room]

/-! ## A network of two peers -/

def pairPeer (host : UInt32) : Peer := .withServices (.ipv4 host) 8333 ServiceFlags.NETWORK

/-- One task at a time; the first peer answers with the second, which knows
nobody. -/
def pairSession : Session where
  config := { maxConcurrentTasks := 1, peerTimeout := 20000000000 }
  connector := fun _ peer =>
    .connected ⟨peer, fun _ => if peer = pairPeer 1 then .ok [pairPeer 2] else .ok []⟩

/-- The crawl of `pairSession` from its first peer. -/
def pairStart : State := coordinate pairSession.config (pairPeer 1)

theorem concurrency_bound_pair :
    ∃ state, (machine pairSession).Run Machine.Always pairStart
        (List.replicate 4 .coordinator ++ List.replicate 6 (.task 0)) state ∧
      state.taskDone = [.foundPeers] ∧
      state.activeTasks = state.runningTasks + state.taskDone.length := by
  obtain ⟨state, run, passed⟩ := Machine.exists_run_of_execute (fun _ _ => true)
    (fun state => state.taskDone = [.foundPeers] ∧ state.coordinator = .batch [])
    (fun _ _ _ => trivial)
    (show ((machine pairSession).execute (fun _ _ => true) pairStart
      (List.replicate 4 .coordinator ++ List.replicate 6 (.task 0))).any _ = true by decide)
  simp only [decide_eq_true_eq] at passed
  exact ⟨state, run, passed.1,
    (concurrency_bound pairSession (pairPeer 1) run (by rw [passed.2]; rfl)).1⟩

end BitcoinPeers.Crawler

import BitcoinPeers.Crawler.AfterHangUp
import BitcoinPeers.Crawler.Reporting
import BitcoinPeers.Crawler.Termination

/-!
Contract: a crawl whose caller has dropped the receiver ends.

Owns:
- the peers that can still be tested after a hang-up, which are finitely many on
  every network;
- the bound this gives on the steps after a hang-up, by the rank of
  `Termination`;
- that the session then comes to rest with `coordinate()` returned and no task
  left, after the one arm and the one batch that `AfterHangUp` allows.

Assumed, as by `Session`: each `connect` and `get_peers` call returns. One that
does not keeps its task, and the coordinator too if it waits for the task.

Does not own: whether the abandoned tasks panic; `HangUp` has that.
-/

namespace BitcoinPeers.Crawler

open BitcoinPeers.Foundation

/-! ## The peers that can still be tested -/

/-- The peers that a task can still put on the discovery channel when nothing
can be reported. -/
def TaskPhase.pending (session : Session) : TaskPhase → List Peer
  | .gettingPeers connection =>
      match connection.getPeers session.config.peerTimeout with
      | .ok discovered => discovered
      | .error _ => []
  | .filtering peers | .sendingPeers peers => peers
  | _ => []

/-- The peers in the current batch, in a queued batch or with a task. -/
def State.pending (session : Session) (state : State) : Finset Peer :=
  (state.coordinator.remaining ++ state.peerDiscovery.flatten ++
    state.tasks.flatMap fun task => task.phase.pending session).toFinset

/-- A closed session whose pending peers lie in `reach`. -/
structure Within (session : Session) (reach : Finset Peer) (state : State) : Prop where
  closed : state.crawlOpen = false
  remaining : ∀ peer ∈ state.coordinator.remaining, peer ∈ reach
  queued : ∀ peers ∈ state.peerDiscovery, ∀ peer ∈ peers, peer ∈ reach
  tasks : ∀ task ∈ state.tasks, ∀ peer ∈ task.phase.pending session, peer ∈ reach

theorem within_pending {session : Session} {state : State} (closed : state.crawlOpen = false) :
    Within session (state.pending session) state := by
  refine ⟨closed, fun peer member => ?_, fun peers queued peer member => ?_,
    fun task inTasks peer member => ?_⟩
  · simp only [State.pending, List.mem_toFinset, List.mem_append]
    exact .inl (.inl member)
  · simp only [State.pending, List.mem_toFinset, List.mem_append]
    exact .inl (.inr (List.mem_flatten.mpr ⟨peers, queued, member⟩))
  · simp only [State.pending, List.mem_toFinset, List.mem_append]
    exact .inr (List.mem_flatMap.mpr ⟨task, inTasks, member⟩)

/-- When nothing can be reported a task finds no peers beyond those it has. -/
theorem TaskStep.pending {session : Session} {state : State} {task : Task} {phase : TaskPhase}
    {effect : Effect} (rule : TaskStep session state task phase effect)
    (closed : state.crawlOpen = false) :
    (∀ peer ∈ phase.pending session, peer ∈ task.phase.pending session) ∧
      (∀ peers ∈ effect.batches, ∀ peer ∈ peers, peer ∈ task.phase.pending session) ∧
      effect.messages = [] := by
  cases rule with
  | reportNonListening position port =>
      rw [crawlPort_ready port] at closed
      cases closed
  | reportListening connection position port =>
      rw [crawlPort_ready port] at closed
      cases closed
  | gotPeers connection discovered position answer nonempty =>
      refine ⟨fun peer member => ?_, by simp [Effect.batches], rfl⟩
      simp only [TaskPhase.pending, position, answer]
      exact member
  | filteredSome discovered position nonempty =>
      refine ⟨fun peer member => ?_, by simp [Effect.batches], rfl⟩
      rw [position]
      exact List.mem_of_mem_filter member
  | discover filtered position live =>
      refine ⟨by simp [TaskPhase.pending], fun peers sent peer member => ?_, rfl⟩
      rw [List.mem_singleton.mp sent] at member
      rw [position]
      exact member
  | _ => exact ⟨by simp [TaskPhase.pending], by simp [Effect.batches], rfl⟩

theorem within_coordinatorStep {session : Session} {reach : Finset Peer} {state next : State}
    (rule : CoordinatorStep session.config state next) (within : Within session reach state) :
    Within session reach next := by
  obtain ⟨closed, remaining, queued, tasks⟩ := within
  cases rule with
  | take peers rest position waiting =>
      rw [waiting] at queued
      exact ⟨closed, queued peers List.mem_cons_self,
        fun batch member => queued batch (List.mem_cons_of_mem _ member), tasks⟩
  | duplicate peer rest position known =>
      rw [position] at remaining
      exact ⟨closed, fun other member => remaining other (List.mem_cons_of_mem _ member), queued,
        tasks⟩
  | insertPeer peer rest position fresh =>
      rw [position] at remaining
      exact ⟨closed, remaining, queued, tasks⟩
  | reap peer rest result done position atCapacity waiting =>
      exact ⟨closed, remaining, queued, tasks⟩
  | spawn peer rest position below =>
      rw [position] at remaining
      refine ⟨closed, fun other member => remaining other (List.mem_cons_of_mem _ member), queued,
        fun task member => ?_⟩
      rcases List.mem_append.mp member with old | new
      · exact tasks task old
      · rw [List.mem_singleton.mp new]
        exact fun other none => absurd none List.not_mem_nil
  | _ => exact ⟨closed, fun peer none => absurd none List.not_mem_nil, queued, tasks⟩

theorem within_transition {session : Session} {reach : Finset Peer} {state next : State}
    {action : Action} (transition : Transition session state action next)
    (within : Within session reach state) : Within session reach next := by
  cases transition with
  | coordinator rule => exact within_coordinatorStep rule within
  | @task index task phase effect found rule =>
      obtain ⟨closed, remaining, queued, tasks⟩ := within
      have held := tasks task (List.mem_of_getElem? found)
      obtain ⟨after, sent, -⟩ := rule.pending closed
      refine ⟨?_, ?_, fun peers waiting => ?_, fun other member => ?_⟩
      · rw [emit_crawlOpen]
        exact closed
      · rw [emit_coordinator]
        exact remaining
      · rw [emit_peerDiscovery] at waiting
        rcases List.mem_append.mp waiting with old | new
        · exact queued peers old
        · exact fun peer inside => held peer (sent peers new peer inside)
      · rw [emit_tasks] at member
        rcases List.mem_or_eq_of_mem_set member with old | new
        · exact tasks other old
        · rw [new]
          exact fun peer inside => held peer (after peer inside)
  | receive isOpen queued =>
      rw [within.closed] at isOpen
      cases isOpen
  | hangUp isOpen =>
      rw [within.closed] at isOpen
      cases isOpen

/-! ## The coordinator does not wait for nothing -/

/-- In `select!` a task is in flight or a batch is queued. -/
def Attends (state : State) : Prop :=
  state.coordinator.isSelecting = true → 0 < state.activeTasks ∨ state.peerDiscovery ≠ []

theorem attends_transition {session : Session} {state next : State} {action : Action}
    (transition : Transition session state action next) (closed : state.crawlOpen = false)
    (attends : Attends state) : Attends next := by
  cases transition with
  | coordinator rule =>
      cases rule with
      | proceed position isOpen =>
          rw [closed] at isOpen
          cases isOpen
      | discoveryPending position empty =>
          intro _
          exact attends (by rw [position]; rfl)
      | donePending position empty =>
          intro _
          exact attends (by rw [position]; rfl)
      | reap peer rest result done position atCapacity queued =>
          intro selecting
          rw [position] at selecting
          cases selecting
      | _ =>
          intro selecting
          cases selecting
  | @task index task phase effect found rule =>
      intro selecting
      rw [emit_coordinator] at selecting
      rw [emit_activeTasks, emit_peerDiscovery]
      refine (attends selecting).imp id fun some none => some ?_
      exact (List.append_eq_nil_iff.mp none).1
  | receive isOpen queued => exact attends
  | hangUp isOpen => exact attends

theorem Occupied.attends {seed : Peer} {state : State} (occupied : Occupied seed state) :
    Attends state := by
  intro selecting
  by_cases empty : state.peerDiscovery = []
  · refine .inl (occupied.busy ?_ empty)
    cases position : state.coordinator with
    | pollDiscovery => exact .inl rfl
    | pollDone => exact .inr rfl
    | _ =>
        rw [position] at selecting
        cases selecting
  · exact .inr empty

/-! ## Something can always happen until the end -/

theorem stepCoordinator_enabled (config : SessionConfig) {state : State}
    (live : state.coordinator.isExited = false) :
    (∃ next, stepCoordinator config state = some next) ∨
      config.maxConcurrentTasks ≤ state.activeTasks ∧ state.taskDone = [] := by
  unfold stepCoordinator
  split
  next => split <;> exact .inl ⟨_, rfl⟩
  next => split <;> exact .inl ⟨_, rfl⟩
  next => split <;> exact .inl ⟨_, rfl⟩
  next => exact .inl ⟨_, rfl⟩
  next => split <;> exact .inl ⟨_, rfl⟩
  next =>
    split
    next atCapacity =>
      split
      next => exact .inl ⟨_, rfl⟩
      next empty => exact .inr ⟨atCapacity, empty⟩
    next => exact .inl ⟨_, rfl⟩
  next position =>
    rw [position] at live
    cases live

/-- When nothing can be reported every running task can move. -/
theorem closed_task_moves {session : Session} {state : State}
    (accounting : Accounting session.config state) (closed : state.crawlOpen = false)
    (running : 0 < state.runningTasks) :
    ∃ index next, (machine session).step state (.task index) = some next := by
  obtain ⟨task, member, runs⟩ := List.countP_pos_iff.mp running
  obtain ⟨index, found⟩ := List.mem_iff_getElem?.mp member
  have port : state.crawlPort = .closed := by simp [State.crawlPort, closed]
  have done : state.donePort session.config ≠ .full := by
    unfold State.donePort
    split
    next => exact fun full => (by cases full)
    next live =>
      have room := accounting.taskDone_room (by simpa using live) member runs
      rw [if_pos room]
      exact fun full => (by cases full)
  suffices moves : ∃ outcome, task.advance session state = some outcome by
    obtain ⟨⟨phase, effect⟩, advanced⟩ := moves
    exact ⟨index, (state.setTask index ⟨task.peer, phase⟩).emit index effect,
      by simp [machine, step, stepTask, found, advanced]⟩
  unfold Task.advance
  split
  next => split <;> exact ⟨_, rfl⟩
  next => simp [port]
  next => simp [port]
  next => split <;> exact ⟨_, rfl⟩
  next => split <;> exact ⟨_, rfl⟩
  next => split <;> exact ⟨_, rfl⟩
  next =>
    split
    next => exact ⟨_, rfl⟩
    next full => exact absurd full done
    next => exact ⟨_, rfl⟩
  next position => simp [position, TaskPhase.running] at runs
  next position => simp [position, TaskPhase.running] at runs

/-- A closed session in which only idle polls are possible is over. -/
theorem settled_of_idle {session : Session} {state : State}
    (capacity : 1 ≤ session.config.maxConcurrentTasks)
    (accounting : Accounting session.config state) (closed : state.crawlOpen = false)
    (attends : Attends state)
    (stuck : ∀ action next, (machine session).step state action = some next →
      IdlePoll state action) :
    state.coordinator.isExited = true ∧ state.runningTasks = 0 := by
  have quiet : state.runningTasks = 0 := by
    by_contra running
    obtain ⟨index, next, stepped⟩ :=
      closed_task_moves accounting closed (Nat.pos_of_ne_zero running)
    have idle := (stuck _ _ stepped).1
    cases idle
  refine ⟨?_, quiet⟩
  by_contra still
  have live : state.coordinator.isExited = false := by simpa using still
  have balance := accounting.counter live
  rcases stepCoordinator_enabled session.config live with
    ⟨next, stepped⟩ | ⟨atCapacity, empty⟩
  · obtain ⟨-, unsent, unfinished, position⟩ := stuck .coordinator next stepped
    have selecting : state.coordinator.isSelecting = true := by
      rcases position with here | here <;> rw [here] <;> rfl
    rcases attends selecting with busy | waiting
    · rw [unfinished, List.length_nil] at balance
      omega
    · exact waiting unsent
  · rw [empty, List.length_nil] at balance
    omega

/-! ## The end -/

instance (state : State) (action : Action) : Decidable (IdlePoll state action) :=
  inferInstanceAs (Decidable (_ ∧ _ ∧ _ ∧ (_ ∨ _)))

/-- The step is not an idle poll. -/
def isWork (state : State) (action : Action) : Bool := !decide (IdlePoll state action)

/-- A run after which the caller still has the receiver never dropped it. -/
theorem keepsReceiver_of_open {session : Session} {start state : State} {actions : List Action}
    (run : (machine session).Run Machine.Always start actions state)
    (isOpen : state.crawlOpen = true) :
    (machine session).Run KeepsReceiver start actions state := by
  rcases run.meets_or_breaks KeepsReceiver with
    kept | ⟨before, action, after, middle, next, -, -, -, breaks, stepped, later⟩
  · exact kept.mono fun _ _ both => both.2
  · exfalso
    rw [not_not.mp breaks] at stepped
    have dropped : next.crawlOpen = false := by
      cases transition_of_step stepped with
      | hangUp => rfl
    have closed := run_invariant (fun state => state.crawlOpen = false)
      (fun _ transition => closed_transition transition) later dropped
    rw [isOpen] at closed
    cases closed

/-- The invariants of a session after a hang-up. -/
structure Closing (session : Session) (reach : Finset Peer) (log : List (Nat × CrawlerMessage))
    (state : State) : Prop where
  accounting : Accounting session.config state
  within : Within session reach state
  attends : Attends state
  silent : state.log = log

theorem closing_transition {session : Session} {reach : Finset Peer}
    {log : List (Nat × CrawlerMessage)} {state next : State} {action : Action}
    (transition : Transition session state action next)
    (closing : Closing session reach log state) : Closing session reach log next := by
  obtain ⟨accounting, within, attends, silent⟩ := closing
  refine ⟨accounting_transition transition accounting, within_transition transition within,
    attends_transition transition within.closed attends, ?_⟩
  cases transition with
  | coordinator rule => cases rule <;> exact silent
  | task found rule =>
      rw [emit_log, (rule.pending within.closed).2.2, List.map_nil, List.append_nil]
      exact silent
  | receive isOpen queued => exact silent
  | hangUp isOpen => exact silent

/-- After a hang-up every step that is not an idle poll lowers the rank. -/
theorem closing_paid {session : Session} {reach : Finset Peer}
    {log : List (Nat × CrawlerMessage)} {state next : State} {action : Action}
    (transition : Transition session state action next)
    (closing : Closing session reach log state) :
    (if isWork state action then 1 else 0) + next.rank session reach ≤
      state.rank session reach := by
  have kept : KeepsReceiver state action := by
    rintro rfl
    cases transition with
    | hangUp isOpen =>
        rw [closing.within.closed] at isOpen
        cases isOpen
  rcases rank_transition kept transition closing.within.remaining with lower | ⟨same, idle⟩
  · split <;> omega
  · have rest : isWork state action = false := by simp [isWork, idle]
    rw [rest, same, if_neg Bool.false_ne_true, Nat.zero_add]

/-- The hang-up in a reachable state starts the closing of the session. -/
theorem closing_hangUp {session : Session} {seed : Peer}
    (capacity : 1 ≤ session.config.maxConcurrentTasks) {before : List Action}
    {state dropped : State}
    (run : (machine session).Run Machine.Always (coordinate session.config seed) before state)
    (drop : (machine session).step state .hangUp = some dropped) :
    Closing session (dropped.pending session) state.log dropped := by
  cases transition_of_step drop with
  | hangUp isOpen =>
      have kept := keepsReceiver_of_open run isOpen
      exact ⟨accounting_transition (.hangUp isOpen) (accounting_run run), within_pending rfl,
        (occupied_run capacity kept).attends, rfl⟩

theorem closing_run {session : Session} {reach : Finset Peer} {log : List (Nat × CrawlerMessage)}
    {dropped final : State} {after : List Action}
    (later : (machine session).Run Machine.Always dropped after final)
    (closing : Closing session reach log dropped) : Closing session reach log final :=
  run_invariant (Closing session reach log)
    (fun _ transition => closing_transition transition) later closing

/-- The closing of a session can always be brought to rest. -/
theorem closing_rests {session : Session} {reach : Finset Peer}
    {log : List (Nat × CrawlerMessage)} {dropped : State}
    (closing : Closing session reach log dropped) :
    ∃ after final, (machine session).Run Machine.Always dropped after final ∧
      ∀ action next, (machine session).step final action = some next → IdlePoll final action := by
  obtain ⟨after, final, run, ended, stuck⟩ := exists_rest session reach KeepsReceiver
    (Closing session reach log) (fun _ _ kept => kept)
    (fun _ transition => closing_transition transition)
    (fun _ closing => closing.within.remaining) closing
  refine ⟨after, final, run.mono fun _ _ _ => trivial, fun action next stepped => ?_⟩
  apply stuck action next _ stepped
  rintro rfl
  cases transition_of_step stepped with
  | hangUp isOpen =>
      rw [ended.within.closed] at isOpen
      cases isOpen

/-- A session whose completion channel could not be created never entered its
loop. -/
theorem exited_run {session : Session} {seed : Peer} {Allowed : State → Action → Prop}
    (refused : session.config.maxConcurrentTasks = 0) {actions : List Action} {state : State}
    (run : (machine session).Run Allowed (coordinate session.config seed) actions state) :
    state.coordinator.isExited = true := by
  apply run_invariant (fun state => state.coordinator.isExited = true)
    (fun _ transition => exited_transition transition) run
  rw [coordinate, if_pos refused]
  rfl

/-- From the moment the receiver is dropped the coordinator takes at most one
more arm. If it is processing a batch it takes none, and spawns for that batch
only; otherwise it receives at most one more batch, and spawns for that one
only. Where calls return, it has returned when only idle polls are left. -/
theorem work_after_hang_up (session : Session) (seed : Peer)
    {before after : List Action} {state dropped final : State}
    (run : (machine session).Run Machine.Always (coordinate session.config seed) before state)
    (drop : (machine session).step state .hangUp = some dropped)
    (later : (machine session).Run Machine.Always dropped after final) :
    armsTaken session dropped after ≤ 1 ∧
      (state.coordinator.isProcessing = true →
        armsTaken session dropped after = 0 ∧ final.taken = state.taken ∧
          ∃ batch new, state.taken.getLast? = some batch ∧
            final.spawned = state.spawned ++ new ∧ ∀ peer ∈ new, peer ∈ batch) ∧
      (state.coordinator.isProcessing = false →
        (final.taken = state.taken ∧ final.spawned = state.spawned) ∨
          ∃ batch new, final.taken = state.taken ++ [batch] ∧
            final.spawned = state.spawned ++ new ∧ ∀ peer ∈ new, peer ∈ batch) ∧
      ((∀ action next, (machine session).step final action = some next →
          IdlePoll final action) →
        final.coordinator.isExited = true) := by
  obtain ⟨arms, processing, idle⟩ := arms_after_hang_up session seed run drop later
  refine ⟨arms, processing, idle, fun stuck => ?_⟩
  rcases Nat.eq_zero_or_pos session.config.maxConcurrentTasks with refused | capacity
  · have whole := run.append (.cons trivial drop later)
    exact exited_run refused whole
  · have closing := closing_run later (closing_hangUp capacity run drop)
    exact (settled_of_idle capacity closing.accounting closing.within.closed closing.attends
      stuck).1

/-- The receiver is dropped while the coordinator is in `select!`; it takes the
seed's batch, spawns the seed and leaves the loop. -/
theorem work_after_hang_up_pair :
    ∃ state dropped final,
      (machine pairSession).Run Machine.Always pairStart [.coordinator] state ∧
      (machine pairSession).step state .hangUp = some dropped ∧
      (machine pairSession).Run Machine.Always dropped (List.replicate 5 .coordinator) final ∧
      final.coordinator = .exited .hungUp ∧ final.spawned = [pairPeer 1] ∧
      armsTaken pairSession dropped (List.replicate 5 .coordinator) ≤ 1 := by
  obtain ⟨state, run, passed⟩ := Machine.exists_run_of_execute (fun _ _ => true)
    (fun state => ((machine pairSession).step state .hangUp).any fun dropped =>
      ((machine pairSession).execute (fun _ _ => true) dropped
        (List.replicate 5 .coordinator)).any fun final =>
          final.coordinator = .exited .hungUp ∧ final.spawned = [pairPeer 1])
    (fun _ _ _ => trivial)
    (show ((machine pairSession).execute (fun _ _ => true) pairStart [.coordinator]).any _ =
      true by decide)
  obtain ⟨dropped, drop, rest⟩ := (Option.any_eq_true _ _).mp passed
  obtain ⟨final, later, ended⟩ := Machine.exists_run_of_execute (fun _ _ => true)
    (fun final : State =>
      final.coordinator = .exited .hungUp ∧ final.spawned = [pairPeer 1])
    (fun _ _ _ => trivial) rest
  simp only [decide_eq_true_eq] at ended
  exact ⟨state, dropped, final, run, drop, later, ended.1, ended.2,
    (work_after_hang_up pairSession (pairPeer 1) run drop later).1⟩

/-- On every network whose calls return, however many peers it has: after the
caller drops the receiver the session takes a bounded number of steps apart from
idle polls, reports nothing more, and when only idle polls are left
`coordinate()` has returned and every task has ended. -/
theorem hung_up_crawl_ends (session : Session) (seed : Peer)
    (capacity : 1 ≤ session.config.maxConcurrentTasks)
    {before after : List Action} {state dropped final : State}
    (run : (machine session).Run Machine.Always (coordinate session.config seed) before state)
    (drop : (machine session).step state .hangUp = some dropped)
    (later : (machine session).Run Machine.Always dropped after final) :
    (machine session).tally isWork dropped after ≤
        dropped.rank session (dropped.pending session) ∧
      final.log = state.log ∧
      ((∀ action next, (machine session).step final action = some next →
          IdlePoll final action) →
        final.coordinator.isExited = true ∧ TasksSettled final) := by
  have initially := closing_hangUp capacity run drop
  have closing := closing_run later initially
  refine ⟨?_, closing.silent, fun stuck => ?_⟩
  · have spent := later.tally_add_le isWork (State.rank session (dropped.pending session))
      (fun _ stepped holds => closing_transition (transition_of_step stepped) holds)
      (fun _ holds stepped => closing_paid (transition_of_step stepped) holds)
      initially
    exact Nat.le_of_add_right_le spent
  · obtain ⟨exited, quiet⟩ := settled_of_idle capacity closing.accounting
      closing.within.closed closing.attends stuck
    exact ⟨exited, tasksSettled_of_quiet quiet⟩

/-- The receiver is dropped while the first task connects; a run to rest leaves
`coordinate()` returned and the task ended. -/
theorem hung_up_crawl_ends_pair :
    ∃ state dropped after final,
      (machine pairSession).Run Machine.Always pairStart (List.replicate 4 .coordinator) state ∧
      (machine pairSession).step state .hangUp = some dropped ∧
      (machine pairSession).Run Machine.Always dropped after final ∧
      (machine pairSession).tally isWork dropped after ≤
        dropped.rank pairSession (dropped.pending pairSession) ∧
      final.log = state.log ∧ final.coordinator.isExited = true ∧ TasksSettled final := by
  obtain ⟨state, run, passed⟩ := Machine.exists_run_of_execute (fun _ _ => true)
    (fun state => ((machine pairSession).step state .hangUp).isSome) (fun _ _ _ => trivial)
    (show ((machine pairSession).execute (fun _ _ => true) pairStart
      (List.replicate 4 .coordinator)).any _ = true by decide)
  obtain ⟨dropped, drop⟩ := Option.isSome_iff_exists.mp passed
  obtain ⟨after, final, later, stuck⟩ := closing_rests (closing_hangUp (by decide) run drop)
  obtain ⟨work, silent, rest⟩ :=
    hung_up_crawl_ends pairSession (pairPeer 1) (by decide) run drop later
  exact ⟨state, dropped, after, final, run, drop, later, work, silent, rest stuck⟩

end BitcoinPeers.Crawler

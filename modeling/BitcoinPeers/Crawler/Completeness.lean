import BitcoinPeers.Crawler.History

/-!
Contract: what an exhausted crawl has covered.

Owns the two-channel ordering argument behind the biased `select!`: the crawl
is complete at the exhausted exit unless the last unfinished task put both its
batch and its result on the channels between the two polls of one `select!`.
The schedule that loses a batch this way is given explicitly.

Does not own: termination of a crawl.
-/

namespace BitcoinPeers.Crawler

open BitcoinPeers.Foundation

/-- Nothing is left on the discovery channel and every peer of every batch ever
sent was tested and had a task spawned for it. -/
def CrawlComplete (state : State) : Prop :=
  state.peerDiscovery = [] ∧
    ∀ peers ∈ state.sent, ∀ peer ∈ peers, peer ∈ state.testedPeers ∧ peer ∈ state.spawned

/-- The step sends a `TaskResult` between the two polls of one `select!` while
its task is the only one in flight and a batch is on the discovery channel. -/
def LateDelivery (state : State) (action : Action) : Prop :=
  state.coordinator = .pollDone ∧ state.activeTasks = 1 ∧ state.peerDiscovery ≠ [] ∧
    ∃ index task result, action = .task index ∧ state.tasks[index]? = some task ∧
      task.phase = .finishing result

/-- The caller keeps the receiver and no result is delivered late. -/
def OrderlyStep (state : State) (action : Action) : Prop :=
  KeepsReceiver state action ∧ ¬ LateDelivery state action

/-! ## Schedules without a late delivery -/

theorem keepsReceiver_of_orderly {session : Session} {start final : State}
    {actions : List Action} (run : (machine session).Run OrderlyStep start actions final) :
    (machine session).Run KeepsReceiver start actions final :=
  run.mono fun _ _ orderly => orderly.1

/-- A result that ends the crawl is seen only when no batch is queued. -/
structure Window (state : State) : Prop where
  polled : state.coordinator = .pollDone → state.activeTasks = 1 → state.taskDone ≠ [] →
    state.peerDiscovery = []
  exhausted : state.coordinator = .exited .exhausted → state.peerDiscovery = []

theorem window_coordinate (config : SessionConfig) (seed : Peer) :
    Window (coordinate config seed) := by
  unfold coordinate
  split <;> exact ⟨nofun, nofun⟩

theorem window_coordinatorStep {config : SessionConfig} {state next : State}
    (rule : CoordinatorStep config state next) (accounting : Accounting config state)
    (window : Window state) : Window next := by
  cases rule with
  | discoveryPending position empty => exact ⟨fun _ _ _ => empty, nofun⟩
  | exhaust result rest position queued last =>
      have queuedSome : state.taskDone ≠ [] := by simp [queued]
      have positive := accounting.activeTasks_pos ⟨queuedSome, .inl position⟩
      exact ⟨nofun, fun _ =>
        window.polled position (by omega) queuedSome⟩
  | reap peer rest result done position atCapacity queued =>
      exact ⟨fun polled => (by rw [position] at polled; cases polled),
        fun exited => (by rw [position] at exited; cases exited)⟩
  | _ => exact ⟨nofun, nofun⟩

theorem window_taskStep {session : Session} {state : State} {index : Nat} {task : Task}
    {phase : TaskPhase} {effect : Effect} (found : state.tasks[index]? = some task)
    (rule : TaskStep session state task phase effect)
    (accounting : Accounting session.config state)
    (punctual : ¬ LateDelivery state (.task index)) :
    Window ((state.setTask index ⟨task.peer, phase⟩).emit index effect) := by
  have running := runningTasks_pos found rule.was_running
  refine ⟨fun polled single queued => ?_, fun exited => ?_⟩
  · simp only [emit_coordinator, emit_activeTasks] at polled single
    have balance := accounting.counter (by
      rw [show state.coordinator = .pollDone from polled]; rfl)
    have idle : state.taskDone = [] := by
      apply List.eq_nil_of_length_eq_zero
      change state.activeTasks = 1 at single
      omega
    cases rule with
    | deliver result position live room =>
        by_contra late
        apply punctual
        refine ⟨polled, single, ?_, index, task, result, rfl, found, position⟩
        simpa [Effect.batches, State.setTask] using late
    | _ =>
        exfalso
        apply queued
        simpa [Effect.results, State.setTask] using idle
  · rw [emit_coordinator] at exited
    have none := (accounting.drained exited).1
    omega

theorem window_transition {session : Session} {state next : State} {action : Action}
    (orderly : OrderlyStep state action) (transition : Transition session state action next)
    (accounting : Accounting session.config state) (window : Window state) : Window next := by
  cases transition with
  | coordinator rule => exact window_coordinatorStep rule accounting window
  | task found rule => exact window_taskStep found rule accounting orderly.2
  | receive isOpen queued => exact ⟨window.polled, window.exhausted⟩
  | hangUp isOpen => exact absurd rfl orderly.1

theorem window_run {session : Session} {seed : Peer} {actions : List Action} {state : State}
    (run : (machine session).Run OrderlyStep (coordinate session.config seed) actions state) :
    Window state :=
  (run_invariant (fun state => Accounting session.config state ∧ Window state)
    (fun orderly transition holds =>
      ⟨accounting_transition transition holds.1,
        window_transition orderly transition holds.1 holds.2⟩)
    run ⟨accounting_coordinate session.config seed, window_coordinate session.config seed⟩).2

/-- An exhausted session with an empty discovery channel has covered every
batch. -/
theorem History.complete {state : State} (history : History state)
    (exited : state.coordinator = .exited .exhausted) (empty : state.peerDiscovery = []) :
    CrawlComplete state := by
  refine ⟨empty, fun peers sent peer member => ?_⟩
  have seen : peer ∈ state.examined := by
    have position := history.position
    rw [exited] at position
    have inTaken : peer ∈ state.taken.flatten := by
      rw [history.channel, empty, List.append_nil] at sent
      exact List.mem_flatten.mpr ⟨peers, sent, member⟩
    rw [position] at inTaken
    simpa [Coordinator.remaining] using inTaken
  have spawned := (history.mem_spawned peer).mpr seen
  exact ⟨(history.tested peer).mpr (.inl spawned), spawned⟩

theorem complete_of_orderly {session : Session} {seed : Peer} {actions : List Action}
    {state : State}
    (run : (machine session).Run OrderlyStep (coordinate session.config seed) actions state)
    (exited : state.coordinator = .exited .exhausted) : CrawlComplete state :=
  (history_run run).complete exited ((window_run run).exhausted exited)

/-! ## Schedules with a late delivery -/

/-- The batch on the discovery channel will never be received. -/
def Lost (state : State) : Prop :=
  state.peerDiscovery ≠ [] ∧
    (state.coordinator = .exited .exhausted ∨
      state.coordinator = .pollDone ∧ state.activeTasks = 1 ∧ state.taskDone ≠ [])

theorem lost_of_lateDelivery {session : Session} {state next : State} {action : Action}
    (late : LateDelivery state action) (transition : Transition session state action next) :
    Lost next := by
  obtain ⟨polled, single, queued, index, task, result, rfl, found, position⟩ := late
  cases transition with
  | @task _ other phase effect here rule =>
      rw [found] at here
      cases here
      cases rule with
      | deliver result' position' live room =>
          refine ⟨?_, .inr ⟨by simpa [State.setTask] using polled,
            by simpa [State.setTask] using single, by simp [Effect.results]⟩⟩
          simpa [State.setTask, Effect.batches] using queued
      | panic result' position' exited =>
          rw [polled] at exited
          cases exited
      | crawlClosed position' =>
          rw [position] at position'
          rcases position' with same | ⟨connection, same⟩ <;> cases same
      | _ => simp_all

theorem lost_transition {session : Session} {state next : State} {action : Action}
    (transition : Transition session state action next)
    (accounting : Accounting session.config state) (lost : Lost state) : Lost next := by
  obtain ⟨queued, stage⟩ := lost
  have noTask : state.runningTasks = 0 := by
    rcases stage with exited | ⟨polled, single, done⟩
    · exact (accounting.drained exited).1
    · have balance := accounting.counter (by rw [polled]; rfl)
      have some : 0 < state.taskDone.length := List.length_pos_of_ne_nil done
      omega
  cases transition with
  | coordinator rule =>
      rcases stage with exited | ⟨polled, single, done⟩
      · cases rule <;> simp_all
      · cases rule with
        | exhaust result rest position taken last => exact ⟨queued, .inl rfl⟩
        | complete result rest position taken more => omega
        | donePending position empty => exact absurd empty done
        | _ => simp_all
  | task found rule =>
      have some := runningTasks_pos found rule.was_running
      omega
  | receive isOpen received => exact ⟨queued, stage⟩
  | hangUp isOpen => exact ⟨queued, stage⟩

/-! ## Completeness -/

/-- At the exhausted exit the crawl is complete exactly when no result was
delivered late on the way there. -/
theorem exhausted_complete_iff_orderly (session : Session) (seed : Peer)
    {actions : List Action} {state : State}
    (run : (machine session).Run KeepsReceiver (coordinate session.config seed) actions state)
    (exited : state.coordinator = .exited .exhausted) :
    CrawlComplete state ↔
      (machine session).Run OrderlyStep (coordinate session.config seed) actions state := by
  constructor
  · intro complete
    rcases run.meets_or_breaks fun state action => ¬ LateDelivery state action with
      orderly | ⟨before, action, after, middle, next, -, reach, -, late, stepped, later⟩
    · exact orderly
    · exfalso
      have transition := transition_of_step stepped
      have accounting := accounting_transition transition (accounting_run reach)
      have lost := lost_of_lateDelivery (not_not.mp late) transition
      have final := run_invariant
        (fun state => Accounting session.config state ∧ Lost state)
        (fun _ transition holds => ⟨accounting_transition transition holds.1,
          lost_transition transition holds.1 holds.2⟩) later ⟨accounting, lost⟩
      exact final.2.1 complete.1
  · intro orderly
    exact complete_of_orderly orderly exited

/-- The executable form of `KeepsReceiver`. -/
def keepsReceiver (_ : State) (action : Action) : Bool := decide (action ≠ .hangUp)

theorem keepsReceiver_sound (state : State) (action : Action)
    (kept : keepsReceiver state action = true) : KeepsReceiver state action := by
  simpa [keepsReceiver, KeepsReceiver] using kept

/-- The second peer of `pairSession` is found before the coordinator polls. -/
def calmSchedule : List Action :=
  List.replicate 5 .coordinator ++ List.replicate 6 (.task 0) ++
    List.replicate 6 .coordinator ++ List.replicate 4 (.task 1) ++ List.replicate 3 .coordinator

theorem exhausted_complete_iff_orderly_pair :
    ∃ state, (machine pairSession).Run KeepsReceiver pairStart calmSchedule state ∧
      state.coordinator = .exited .exhausted ∧
      (CrawlComplete state ↔
        (machine pairSession).Run OrderlyStep pairStart calmSchedule state) := by
  obtain ⟨state, run, passed⟩ := Machine.exists_run_of_execute keepsReceiver
    (fun state => state.coordinator = .exited .exhausted) keepsReceiver_sound
    (show ((machine pairSession).execute keepsReceiver pairStart calmSchedule).any _ = true by
      decide)
  simp only [decide_eq_true_eq] at passed
  exact ⟨state, run, passed,
    exhausted_complete_iff_orderly pairSession (pairPeer 1) run passed⟩

/-- The first peer's task sends its batch and its result between the two polls
of the coordinator's second `select!`. -/
def raceSchedule : List Action :=
  List.replicate 7 .coordinator ++ List.replicate 6 (.task 0) ++ [.coordinator]

/-- The crawl of `pairSession` under `raceSchedule` ends as exhausted with the
second peer still on the discovery channel. -/
theorem race_loses_batch :
    1 ≤ pairSession.config.maxConcurrentTasks ∧
      ∃ state, (machine pairSession).Run KeepsReceiver pairStart raceSchedule state ∧
        state.coordinator = .exited .exhausted ∧ state.peerDiscovery = [[pairPeer 2]] ∧
        ¬ CrawlComplete state := by
  refine ⟨by decide, ?_⟩
  obtain ⟨state, run, passed⟩ := Machine.exists_run_of_execute keepsReceiver
    (fun state => state.coordinator = .exited .exhausted ∧ state.peerDiscovery = [[pairPeer 2]])
    keepsReceiver_sound
    (show ((machine pairSession).execute keepsReceiver pairStart raceSchedule).any _ = true by
      decide)
  simp only [decide_eq_true_eq] at passed
  refine ⟨state, run, passed.1, passed.2, fun complete => ?_⟩
  rw [complete.1] at passed
  cases passed.2

end BitcoinPeers.Crawler

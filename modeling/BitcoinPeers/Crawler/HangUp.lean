import BitcoinPeers.Crawler.Completeness

/-!
Contract: what happens to the tasks when `coordinate()` leaves its loop.

Owns the exact schedules on which the `expect` on a task's completion send is
never reached: those in which the hang-up break is not taken while a spawned
task has still to send its result.

Does not own: how much work follows a hang-up.
-/

namespace BitcoinPeers.Crawler

open BitcoinPeers.Foundation

/-- The coordinator takes the hang-up break and drops `task_done_rx` while a
task has still to send its result. -/
def AbandonsTasks (state : State) (action : Action) : Prop :=
  action = .coordinator ∧ state.coordinator = .top ∧ state.crawlOpen = false ∧
    0 < state.runningTasks

/-- No task has reached the failure of its completion send. -/
def NoTaskPanicked (state : State) : Prop :=
  ∀ task ∈ state.tasks, task.phase ≠ .panicked

/-- Every spawned task has sent its result or panicked. -/
def TasksSettled (state : State) : Prop :=
  ∀ task ∈ state.tasks, task.phase.running = false

theorem tasksSettled_of_quiet {state : State} (quiet : state.runningTasks = 0) :
    TasksSettled state := by
  intro task member
  by_contra running
  have some : 0 < state.runningTasks :=
    List.countP_pos_iff.mpr ⟨task, member, by simpa using running⟩
  omega

/-! ## Schedules that abandon no task -/

/-- After the exit no task runs, and no task has panicked. -/
structure Graceful (state : State) : Prop where
  settled : state.coordinator.isExited = true → state.runningTasks = 0
  quiet : NoTaskPanicked state

theorem graceful_coordinate (config : SessionConfig) (seed : Peer) :
    Graceful (coordinate config seed) := by
  unfold coordinate
  split
  · exact ⟨fun _ => rfl, fun task member => nomatch member⟩
  · exact ⟨fun _ => rfl, fun task member => nomatch member⟩

theorem graceful_coordinatorStep {config : SessionConfig} {state next : State}
    (rule : CoordinatorStep config state next) (accounting : Accounting config state)
    (waits : ¬ AbandonsTasks state .coordinator) (graceful : Graceful state) :
    Graceful next := by
  have settled := (accounting_coordinatorStep rule accounting).drained
  cases rule with
  | hangUp position closed =>
      refine ⟨fun _ => ?_, graceful.quiet⟩
      by_contra running
      exact waits ⟨rfl, position, closed, Nat.pos_of_ne_zero running⟩
  | exhaust result rest position queued last => exact ⟨fun _ => (settled rfl).1, graceful.quiet⟩
  | reap peer rest result done position atCapacity queued =>
      exact ⟨graceful.settled, graceful.quiet⟩
  | spawn peer rest position below =>
      refine ⟨nofun, fun task member => ?_⟩
      rcases List.mem_append.mp member with old | new
      · exact graceful.quiet task old
      · rw [List.mem_singleton] at new
        rw [new]
        exact nofun
  | _ => exact ⟨nofun, graceful.quiet⟩

theorem graceful_transition {session : Session} {state next : State} {action : Action}
    (waits : ¬ AbandonsTasks state action) (transition : Transition session state action next)
    (accounting : Accounting session.config state) (graceful : Graceful state) :
    Graceful next := by
  cases transition with
  | coordinator rule => exact graceful_coordinatorStep rule accounting waits graceful
  | @task index task phase effect found rule =>
      have running := runningTasks_pos found rule.was_running
      have live : state.coordinator.isExited ≠ true := by
        intro exited
        have none := graceful.settled exited
        omega
      refine ⟨fun exited => ?_, fun other member => ?_⟩
      · rw [emit_coordinator] at exited
        exact absurd exited live
      · rw [emit_tasks] at member
        rcases List.mem_or_eq_of_mem_set member with old | new
        · exact graceful.quiet other old
        · rw [new]
          rcases rule.running_cases with ⟨still, -⟩ | ⟨rfl, -, exited⟩ | ⟨result, rfl, -⟩
          · intro panicked
            rw [show phase = .panicked from panicked] at still
            cases still
          · exact absurd exited live
          · exact nofun
  | receive isOpen queued => exact ⟨graceful.settled, graceful.quiet⟩
  | hangUp isOpen => exact ⟨graceful.settled, graceful.quiet⟩

/-! ## Schedules that abandon a task -/

/-- Some task can no longer deliver its result. -/
def Doomed (state : State) : Prop :=
  state.coordinator.isExited = true ∧
    ∃ task ∈ state.tasks, task.phase.running = true ∨ task.phase = .panicked

theorem doomed_of_abandonsTasks {session : Session} {state next : State} {action : Action}
    (abandons : AbandonsTasks state action)
    (transition : Transition session state action next) : Doomed next := by
  obtain ⟨rfl, position, closed, running⟩ := abandons
  obtain ⟨task, member, runs⟩ := List.countP_pos_iff.mp running
  cases transition with
  | coordinator rule =>
      cases rule with
      | hangUp => exact ⟨rfl, task, member, .inl runs⟩
      | _ => simp_all

/-- `coordinate()` does not come back. -/
theorem exited_transition {session : Session} {state next : State} {action : Action}
    (transition : Transition session state action next)
    (exited : state.coordinator.isExited = true) : next.coordinator.isExited = true := by
  cases transition with
  | coordinator rule => cases rule <;> simp_all [Coordinator.isExited]
  | task found rule =>
      rw [emit_coordinator]
      exact exited
  | receive isOpen queued => exact exited
  | hangUp isOpen => exact exited

theorem doomed_transition {session : Session} {state next : State} {action : Action}
    (transition : Transition session state action next) (doomed : Doomed state) :
    Doomed next := by
  obtain ⟨exited, task, member, fate⟩ := doomed
  refine ⟨exited_transition transition exited, ?_⟩
  cases transition with
  | coordinator rule => cases rule <;> simp_all [Coordinator.isExited]
  | @task index other phase effect found rule =>
      rw [emit_tasks]
      by_cases unmoved : state.tasks[index]? = some task
      · refine ⟨⟨other.peer, phase⟩, ?_, ?_⟩
        · obtain ⟨inBounds, -⟩ := List.getElem?_eq_some_iff.mp found
          exact List.mem_iff_getElem.mpr ⟨index, by simpa [State.setTask] using inBounds,
            by simp [State.setTask]⟩
        · rcases rule.running_cases with ⟨still, -⟩ | ⟨rfl, -, -⟩ | ⟨result, -, -, live, -⟩
          · exact .inl still
          · exact .inr rfl
          · rw [exited] at live
            cases live
      · obtain ⟨position, inBounds, here⟩ := List.mem_iff_getElem.mp member
        refine ⟨task, ?_, fate⟩
        have apart : index ≠ position := by
          intro same
          apply unmoved
          rw [same, List.getElem?_eq_getElem inBounds, here]
        exact List.mem_iff_getElem.mpr ⟨position, by simpa [State.setTask] using inBounds,
          by simp [State.setTask, List.getElem_set_ne apart, here]⟩
  | receive isOpen queued => exact ⟨task, member, fate⟩
  | hangUp isOpen => exact ⟨task, member, fate⟩

/-! ## The graceful stop -/

/-- A run that abandons no task has no panicked task; a run whose tasks have all
settled without a panic abandoned none. -/
theorem no_task_panicked_iff_none_abandoned (session : Session) (seed : Peer)
    {actions : List Action} {state : State}
    (run : (machine session).Run Machine.Always (coordinate session.config seed)
      actions state) :
    ((machine session).Run (fun state action => ¬ AbandonsTasks state action)
        (coordinate session.config seed) actions state → NoTaskPanicked state) ∧
      (TasksSettled state → NoTaskPanicked state →
        (machine session).Run (fun state action => ¬ AbandonsTasks state action)
          (coordinate session.config seed) actions state) := by
  constructor
  · intro waits
    exact (run_invariant (fun state => Accounting session.config state ∧ Graceful state)
      (fun patient transition holds => ⟨accounting_transition transition holds.1,
        graceful_transition patient transition holds.1 holds.2⟩)
      waits ⟨accounting_coordinate session.config seed,
        graceful_coordinate session.config seed⟩).2.quiet
  · intro settled quiet
    rcases run.meets_or_breaks fun state action => ¬ AbandonsTasks state action with
      waits | ⟨before, action, after, middle, next, -, reach, -, abandons, stepped, later⟩
    · exact waits.mono fun _ _ both => both.2
    · exfalso
      have doomed := run_invariant Doomed (fun _ transition => doomed_transition transition)
        later (doomed_of_abandonsTasks (not_not.mp abandons) (transition_of_step stepped))
      obtain ⟨-, task, member, running | panicked⟩ := doomed
      · rw [settled task member] at running
        cases running
      · exact quiet task member panicked

instance (state : State) (action : Action) : Decidable (AbandonsTasks state action) :=
  inferInstanceAs (Decidable (_ ∧ _ ∧ _ ∧ _))

/-- The caller drops the receiver when the first task has sent its result. -/
def gracefulSchedule : List Action :=
  List.replicate 5 .coordinator ++ List.replicate 6 (.task 0) ++ [.hangUp, .coordinator]

/-- `gracefulSchedule` leaves the loop by the hang-up break without abandoning a
task, so no task has panicked. -/
theorem no_task_panicked_iff_none_abandoned_pair :
    ∃ state, (machine pairSession).Run Machine.Always pairStart gracefulSchedule state ∧
      state.coordinator = .exited .hungUp ∧ state.spawned = [pairPeer 1] ∧
      (machine pairSession).Run (fun state action => ¬ AbandonsTasks state action)
        pairStart gracefulSchedule state ∧
      NoTaskPanicked state := by
  obtain ⟨state, waits, passed⟩ := Machine.exists_run_of_execute
    (fun state action => decide (¬ AbandonsTasks state action))
    (fun state : State =>
      decide (state.coordinator = .exited .hungUp ∧ state.spawned = [pairPeer 1]))
    (fun _ _ waits => of_decide_eq_true waits)
    (show ((machine pairSession).execute (fun state action => decide (¬ AbandonsTasks state action))
      pairStart gracefulSchedule).any _ = true by decide)
  obtain ⟨exited, spawned⟩ := of_decide_eq_true passed
  have run : (machine pairSession).Run Machine.Always pairStart gracefulSchedule state :=
    waits.mono fun _ _ _ => trivial
  exact ⟨state, run, exited, spawned, waits,
    (no_task_panicked_iff_none_abandoned pairSession (pairPeer 1) run).1 waits⟩

/-- The caller drops the receiver while the first task is connecting. -/
def hangUpSchedule : List Action :=
  List.replicate 4 .coordinator ++ [.hangUp, .coordinator, .coordinator] ++
    List.replicate 3 (.task 0)

/-- Under `hangUpSchedule` the coordinator breaks out of its loop and the task's
completion send fails. -/
theorem hang_up_panics_task :
    ∃ state, (machine pairSession).Run Machine.Always pairStart hangUpSchedule state ∧
      ¬ NoTaskPanicked state := by
  obtain ⟨state, run, passed⟩ := Machine.exists_run_of_execute (fun _ _ => true)
    (fun state => state.tasks.any fun task => match task.phase with
      | .panicked => true
      | _ => false)
    (fun _ _ _ => trivial)
    (show ((machine pairSession).execute (fun _ _ => true) pairStart hangUpSchedule).any _ =
      true by decide)
  refine ⟨state, run, fun quiet => ?_⟩
  obtain ⟨task, member, panicked⟩ := List.any_eq_true.mp passed
  split at panicked
  next phase => exact quiet task member phase
  next => cases panicked

end BitcoinPeers.Crawler

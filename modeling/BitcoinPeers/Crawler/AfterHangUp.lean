import BitcoinPeers.Crawler.HangUp

/-!
Contract: what `coordinate()` still does after the caller drops the receiver.

Owns:
- the `select!` arms taken on a schedule;
- the entries of the current batch as entries of the last batch received;
- the bound on arms, batches and spawned tasks after a hang-up, from whichever
  point of the loop the coordinator was at.

Does not own: what the abandoned tasks do, or that the coordinator returns;
`HangUp` and `Shutdown` have these.
-/

namespace BitcoinPeers.Crawler

open BitcoinPeers.Foundation

/-- The coordinator is in `for peer in peers`. -/
def Coordinator.isProcessing : Coordinator → Bool
  | .batch _ => true
  | .capacity _ _ => true
  | _ => false

/-- The coordinator is in `select!`. -/
def Coordinator.isSelecting : Coordinator → Bool
  | .pollDiscovery => true
  | .pollDone => true
  | _ => false

/-- The step takes an arm of `select!`: the channel it polls has a value. -/
def takesArm (state : State) (action : Action) : Bool :=
  match action, state.coordinator with
  | .coordinator, .pollDiscovery => !state.peerDiscovery.isEmpty
  | .coordinator, .pollDone => !state.taskDone.isEmpty
  | _, _ => false

/-- The number of `select!` arms a schedule takes. -/
def armsTaken (session : Session) : State → List Action → Nat :=
  (machine session).tally takesArm

/-! ## The current batch -/

/-- What is left of the current batch belongs to the last batch received. -/
def Belongs (state : State) : Prop :=
  state.coordinator.isProcessing = true →
    ∃ batch, state.taken.getLast? = some batch ∧
      ∀ peer ∈ state.coordinator.remaining, peer ∈ batch

theorem belongs_coordinate (config : SessionConfig) (seed : Peer) :
    Belongs (coordinate config seed) := by
  unfold coordinate
  split <;> exact nofun

theorem belongs_transition {session : Session} {state next : State} {action : Action}
    (transition : Transition session state action next) (belongs : Belongs state) :
    Belongs next := by
  cases transition with
  | coordinator rule =>
      cases rule with
      | take peers rest position queued =>
          exact fun _ => ⟨peers, by simp, fun peer member => member⟩
      | duplicate peer rest position known =>
          obtain ⟨batch, last, within⟩ := belongs (by rw [position]; rfl)
          rw [position] at within
          exact fun _ => ⟨batch, last, fun other member =>
            within other (List.mem_cons_of_mem _ member)⟩
      | insertPeer peer rest position fresh =>
          obtain ⟨batch, last, within⟩ := belongs (by rw [position]; rfl)
          rw [position] at within
          exact fun _ => ⟨batch, last, within⟩
      | reap peer rest result done position atCapacity queued => exact belongs
      | spawn peer rest position below =>
          obtain ⟨batch, last, within⟩ := belongs (by rw [position]; rfl)
          rw [position] at within
          exact fun _ => ⟨batch, last, fun other member =>
            within other (List.mem_cons_of_mem _ member)⟩
      | _ => exact nofun
  | @task index task phase effect found rule =>
      intro processing
      rw [emit_coordinator] at processing
      obtain ⟨batch, last, within⟩ := belongs processing
      refine ⟨batch, ?_, ?_⟩
      · rw [emit_taken]
        exact last
      · rw [emit_coordinator]
        exact within
  | receive isOpen queued => exact belongs
  | hangUp isOpen => exact belongs

/-! ## Arms after a hang-up -/

/-- The arms the coordinator may still take once the receiver is dropped. -/
def armsLeft (state : State) : Nat := if state.coordinator.isSelecting then 1 else 0

theorem closed_transition {session : Session} {state next : State} {action : Action}
    (transition : Transition session state action next) (closed : state.crawlOpen = false) :
    next.crawlOpen = false := by
  cases transition with
  | coordinator rule => cases rule <;> exact closed
  | task found rule => rw [emit_crawlOpen]; exact closed
  | receive isOpen queued => exact closed
  | hangUp isOpen => rfl

theorem armsLeft_transition {session : Session} {state next : State} {action : Action}
    (transition : Transition session state action next) (closed : state.crawlOpen = false) :
    (if takesArm state action then 1 else 0) + armsLeft next ≤ armsLeft state := by
  cases transition with
  | coordinator rule =>
      cases rule with
      | proceed position isOpen => rw [closed] at isOpen; cases isOpen
      | _ => simp [takesArm, armsLeft, Coordinator.isSelecting, *]
  | task found rule => simp [takesArm, armsLeft, State.setTask]
  | receive isOpen queued => simp [takesArm, armsLeft]
  | hangUp isOpen => simp [takesArm, armsLeft]

/-- Once the receiver is dropped the arms taken are bounded by those left. -/
theorem armsTaken_le {session : Session} {Allowed : State → Action → Prop} {start final : State}
    {actions : List Action} (run : (machine session).Run Allowed start actions final)
    (closed : start.crawlOpen = false) : armsTaken session start actions ≤ armsLeft start := by
  have paid := run.tally_add_le takesArm armsLeft
    (fun _ stepped => closed_transition (transition_of_step stepped))
    (fun _ closed stepped => armsLeft_transition (transition_of_step stepped) closed) closed
  change armsTaken session start actions + armsLeft final ≤ armsLeft start at paid
  omega

theorem armsLeft_le (state : State) : armsLeft state ≤ 1 := by
  unfold armsLeft
  split <;> omega

theorem armsLeft_of_isProcessing {state : State}
    (processing : state.coordinator.isProcessing = true) : armsLeft state = 0 := by
  cases position : state.coordinator <;>
    simp_all [armsLeft, Coordinator.isProcessing, Coordinator.isSelecting]

/-! ## Batches and tasks after a hang-up -/

/-- `batch` is the one batch the coordinator works on after the hang-up in
`start`: the current one, or else the next it receives. -/
def LastBatch (start state : State) (batch : List Peer) : Prop :=
  (start.coordinator.isProcessing = true ∧ start.taken.getLast? = some batch ∧
      state.taken = start.taken) ∨
    (start.coordinator.isProcessing = false ∧ state.taken = start.taken ++ [batch])

/-- What the coordinator has done since the hang-up in `start`. -/
inductive Confined (start state : State) : Prop where
  | waiting (before : start.coordinator.isProcessing = false)
      (now : state.coordinator.isProcessing = false) (taken : state.taken = start.taken)
      (spawned : state.spawned = start.spawned)
  | working (batch new : List Peer) (last : LastBatch start state batch)
      (now : state.coordinator.isSelecting = false)
      (spawned : state.spawned = start.spawned ++ new)
      (within : ∀ peer ∈ new ++ state.coordinator.remaining, peer ∈ batch)

/-- A move inside the loop that takes no batch and spawns no task. -/
theorem Confined.move {start state next : State} (confined : Confined start state)
    (taken : next.taken = state.taken) (spawned : next.spawned = state.spawned)
    (processing : state.coordinator.isProcessing = false → next.coordinator.isProcessing = false)
    (selecting : state.coordinator.isSelecting = false → next.coordinator.isSelecting = false)
    (remaining : ∀ peer ∈ next.coordinator.remaining, peer ∈ state.coordinator.remaining) :
    Confined start next := by
  cases confined with
  | waiting before now same none =>
      exact .waiting before (processing now) (taken.trans same) (spawned.trans none)
  | working batch new last now grown within =>
      refine .working batch new ?_ (selecting now) (spawned.trans grown) fun peer member => ?_
      · unfold LastBatch at last ⊢
        rw [taken]
        exact last
      · rcases List.mem_append.mp member with old | left
        · exact within peer (List.mem_append_left _ old)
        · exact within peer (List.mem_append_right _ (remaining peer left))

theorem confined_coordinatorStep {config : SessionConfig} {start state next : State}
    (rule : CoordinatorStep config state next) (closed : state.crawlOpen = false)
    (confined : Confined start state) : Confined start next := by
  cases rule with
  | proceed position isOpen =>
      rw [closed] at isOpen
      cases isOpen
  | take peers rest position queued =>
      cases confined with
      | waiting before now same none =>
          refine .working peers [] (.inr ⟨before, ?_⟩) rfl ?_ fun peer member => member
          · change state.taken ++ [peers] = start.taken ++ [peers]
            rw [same]
          · rw [List.append_nil]
            exact none
      | working batch new last now grown within =>
          rw [position] at now
          cases now
  | spawn peer rest position below =>
      cases confined with
      | waiting before now same none =>
          rw [position] at now
          cases now
      | working batch new last now grown within =>
          rw [position] at within
          refine .working batch (new ++ [peer]) last rfl ?_ fun other member => ?_
          · change (state.tasks ++ [(⟨peer, .connecting⟩ : Task)]).map Task.peer = _
            rw [List.map_append, ← List.append_assoc, ← grown]
            rfl
          · apply within
            simpa [Coordinator.remaining] using member
  | duplicate peer rest position known =>
      refine confined.move rfl rfl (by simp [position, Coordinator.isProcessing])
        (fun _ => rfl) fun other member => ?_
      rw [position]
      exact List.mem_cons_of_mem _ member
  | insertPeer peer rest position fresh =>
      refine confined.move rfl rfl (by simp [position, Coordinator.isProcessing])
        (fun _ => rfl) fun other member => ?_
      rw [position]
      exact member
  | reap peer rest result done position atCapacity queued =>
      exact confined.move rfl rfl id id fun other member => member
  | discoveryPending position empty =>
      exact confined.move rfl rfl (fun _ => rfl) (by simp [position, Coordinator.isSelecting])
        (by simp [Coordinator.remaining])
  | donePending position empty =>
      exact confined.move rfl rfl (fun _ => rfl) (by simp [position, Coordinator.isSelecting])
        (by simp [Coordinator.remaining])
  | _ =>
      exact confined.move rfl rfl (fun _ => rfl) (fun _ => rfl) (by simp [Coordinator.remaining])

theorem confined_transition {session : Session} {start state next : State} {action : Action}
    (transition : Transition session state action next) (closed : state.crawlOpen = false)
    (confined : Confined start state) : Confined start next := by
  cases transition with
  | coordinator rule => exact confined_coordinatorStep rule closed confined
  | @task index task phase effect found rule =>
      have spawned := spawned_setTask found phase
      refine confined.move (by simp [State.setTask]) ?_ ?_ ?_ ?_
      · rw [emit_spawned, spawned]
      all_goals
        rw [emit_coordinator]
        simp [State.setTask]
  | receive isOpen queued => exact confined.move rfl rfl id id fun _ member => member
  | hangUp isOpen => exact confined.move rfl rfl id id fun _ member => member

/-- At the hang-up itself nothing has been done since. -/
theorem confined_refl {state : State} (belongs : Belongs state) : Confined state state := by
  cases processing : state.coordinator.isProcessing with
  | false => exact .waiting processing processing rfl rfl
  | true =>
      obtain ⟨batch, last, within⟩ := belongs processing
      refine .working batch [] (.inl ⟨processing, last, rfl⟩) ?_ (List.append_nil _).symm within
      cases position : state.coordinator <;> simp_all [Coordinator.isProcessing,
        Coordinator.isSelecting]

theorem confined_run {session : Session} {Allowed : State → Action → Prop}
    {start dropped final : State} {actions : List Action}
    (run : (machine session).Run Allowed dropped actions final)
    (closed : dropped.crawlOpen = false) (confined : Confined start dropped) :
    Confined start final :=
  (run_invariant (fun state => state.crawlOpen = false ∧ Confined start state)
    (fun _ transition holds => ⟨closed_transition transition holds.1,
      confined_transition transition holds.1 holds.2⟩) run ⟨closed, confined⟩).2

/-- From the moment the receiver is dropped the coordinator takes at most one
more arm. If it is processing a batch it takes none, and spawns for that batch
only; otherwise it receives at most one more batch, and spawns for that one
only. -/
theorem arms_after_hang_up (session : Session) (seed : Peer)
    {before after : List Action} {state dropped final : State}
    (run : (machine session).Run Machine.Always (coordinate session.config seed) before state)
    (drop : (machine session).step state .hangUp = some dropped)
    (later : (machine session).Run Machine.Always dropped after final) :
    armsTaken session dropped after ≤ 1 ∧
      (state.coordinator.isProcessing = true →
        armsTaken session dropped after = 0 ∧ final.taken = state.taken ∧
          ∃ batch new, state.taken.getLast? = some batch ∧
            final.spawned = state.spawned ++ new ∧ ∀ peer ∈ new, peer ∈ batch) ∧
      (state.coordinator.isProcessing = false →
        (final.taken = state.taken ∧ final.spawned = state.spawned) ∨
          ∃ batch new, final.taken = state.taken ++ [batch] ∧
            final.spawned = state.spawned ++ new ∧ ∀ peer ∈ new, peer ∈ batch) := by
  have belongs := run_invariant Belongs (fun _ transition => belongs_transition transition) run
    (belongs_coordinate session.config seed)
  have moved := transition_of_step drop
  cases moved with
  | hangUp isOpen =>
      have arms := armsTaken_le later rfl
      change armsTaken session _ after ≤ armsLeft state at arms
      have confined := confined_run later rfl
        ((confined_refl belongs).move rfl rfl id id fun _ member => member)
      refine ⟨arms.trans (armsLeft_le state), fun processing => ?_, fun idle => ?_⟩
      · rw [armsLeft_of_isProcessing processing] at arms
        refine ⟨Nat.le_zero.mp arms, ?_⟩
        cases confined with
        | waiting idle => rw [processing] at idle; cases idle
        | working batch new last now spawned within =>
            rcases last with ⟨-, last, taken⟩ | ⟨idle, -⟩
            · exact ⟨taken, batch, new, last, spawned, fun peer member =>
                within peer (List.mem_append_left _ member)⟩
            · rw [processing] at idle
              cases idle
      · cases confined with
        | waiting _ now taken spawned => exact .inl ⟨taken, spawned⟩
        | working batch new last now spawned within =>
            rcases last with ⟨processing, -⟩ | ⟨-, taken⟩
            · rw [processing] at idle
              cases idle
            · exact .inr ⟨batch, new, taken, spawned, fun peer member =>
                within peer (List.mem_append_left _ member)⟩

end BitcoinPeers.Crawler

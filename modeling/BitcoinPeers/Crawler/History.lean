import BitcoinPeers.Crawler.Accounting
import BitcoinPeers.Foundation.Sequences

/-!
Contract: what a session has looked at and spawned.

Owns the history invariant: spawned peers are the first occurrences of the
entries before the coordinator's position, and the tested set is exactly these
plus the peer held at the capacity wait.

Does not own: what the spawned tasks report, or which schedules reach the
exhausted exit.
-/

namespace BitcoinPeers.Crawler

open BitcoinPeers.Foundation

/-! ## Positions in the batches -/

/-- The examined entries are those before the coordinator's position. -/
theorem examined_eq (state : State) {before : List Peer}
    (split : state.taken.flatten = before ++ state.coordinator.remaining) :
    state.examined = before := by
  simp [State.examined, split]

/-- A task step keeps the peers of all tasks. -/
theorem spawned_setTask {state : State} {index : Nat} {task : Task}
    (found : state.tasks[index]? = some task) (phase : TaskPhase) :
    (state.setTask index ⟨task.peer, phase⟩).spawned = state.spawned := by
  obtain ⟨inBounds, here⟩ := List.getElem?_eq_some_iff.mp found
  have inMapped : index < (state.tasks.map Task.peer).length := by simpa using inBounds
  have same : task.peer = (state.tasks.map Task.peer)[index] := by simp [here]
  change (state.tasks.set index ⟨task.peer, phase⟩).map Task.peer = state.tasks.map Task.peer
  rw [List.map_set]
  change (state.tasks.map Task.peer).set index task.peer = state.tasks.map Task.peer
  rw [same]
  exact List.set_getElem_self inMapped

structure History (state : State) : Prop where
  channel : state.sent = state.taken ++ state.peerDiscovery
  position : state.taken.flatten = state.examined ++ state.coordinator.remaining
  spawned : state.spawned = state.examined.eraseDups
  tested : ∀ peer, peer ∈ state.testedPeers ↔
    peer ∈ state.spawned ∨ peer ∈ state.coordinator.held
  heldFresh : ∀ peer ∈ state.coordinator.held, peer ∉ state.spawned

theorem History.mem_spawned {state : State} (history : History state) (peer : Peer) :
    peer ∈ state.spawned ↔ peer ∈ state.examined := by
  rw [history.spawned, List.mem_eraseDups]

/-- The entries the coordinator has still to look at were sent. -/
theorem History.mem_sent {state : State} (history : History state) {peer : Peer}
    (member : peer ∈ state.coordinator.remaining) : ∃ peers ∈ state.sent, peer ∈ peers := by
  have inTaken : peer ∈ state.taken.flatten := by
    rw [history.position]
    exact List.mem_append_right _ member
  obtain ⟨peers, taken, here⟩ := List.mem_flatten.mp inTaken
  refine ⟨peers, ?_, here⟩
  rw [history.channel]
  exact List.mem_append_left _ taken

theorem history_coordinate (config : SessionConfig) (seed : Peer) :
    History (coordinate config seed) := by
  unfold coordinate
  split <;> exact ⟨rfl, rfl, rfl, by simp [State.spawned, Coordinator.held], by
    simp [Coordinator.held]⟩

/-- A coordinator move inside the loop that keeps the position, the tasks and
the tested set keeps the history. -/
theorem History.move {state next : State} (history : History state)
    (channel : next.sent = next.taken ++ next.peerDiscovery)
    (position : next.taken.flatten = state.examined ++ next.coordinator.remaining)
    (tasks : next.tasks = state.tasks) (tested : next.testedPeers = state.testedPeers)
    (before : state.coordinator.held = []) (after : next.coordinator.held = []) :
    History next := by
  have examined := examined_eq next position
  have spawned : next.spawned = state.spawned := by rw [State.spawned, tasks, State.spawned]
  refine ⟨channel, by rw [examined, position], by rw [examined, spawned, history.spawned],
    fun peer => ?_, fun peer held => ?_⟩
  · rw [tested, spawned, after, history.tested peer, before]
  · rw [after] at held
    cases held

/-- The position one entry further. -/
theorem History.past {state : State} (history : History state) {peer : Peer} {rest : List Peer}
    (next : state.coordinator.remaining = peer :: rest) :
    state.taken.flatten = (state.examined ++ [peer]) ++ rest := by
  rw [history.position, next]
  simp

/-- Passing over an entry that is in the tested set. -/
theorem History.duplicate {state : State} (history : History state) {peer : Peer}
    {rest : List Peer} (here : state.coordinator = .batch (peer :: rest))
    (known : peer ∈ state.testedPeers) : History { state with coordinator := .batch rest } := by
  have seen : peer ∈ state.examined := by
    rw [history.tested peer, here, history.mem_spawned] at known
    simpa [Coordinator.held] using known
  have split := history.past (by rw [here]; rfl)
  have examined := examined_eq { state with coordinator := .batch rest } split
  refine ⟨history.channel, by rw [examined]; exact split, ?_, fun other => ?_,
    fun other held => ?_⟩
  · rw [examined, eraseDups_concat_of_mem seen]
    exact history.spawned
  · have tested := history.tested other
    rw [here] at tested
    exact tested
  · cases held

/-- Inserting an entry in the tested set, before the capacity wait. -/
theorem History.insertPeer {state : State} (history : History state) {peer : Peer}
    {rest : List Peer} (here : state.coordinator = .batch (peer :: rest))
    (fresh : peer ∉ state.testedPeers) :
    History { state with
      coordinator := .capacity peer rest, testedPeers := insert peer state.testedPeers } := by
  have position := history.position
  have tested := history.tested
  rw [here] at position tested
  have examined := examined_eq
    { state with
      coordinator := .capacity peer rest, testedPeers := insert peer state.testedPeers }
    position
  refine ⟨history.channel, by rw [examined]; exact position,
    by rw [examined]; exact history.spawned, fun other => ?_, fun other held => ?_⟩
  · change other ∈ insert peer state.testedPeers ↔ other ∈ state.spawned ∨ other ∈ [peer]
    rw [Finset.mem_insert, tested other]
    simp [Coordinator.held, or_comm]
  · change other ∈ [peer] at held
    rw [List.mem_singleton] at held
    rw [tested peer] at fresh
    rw [held]
    exact fun spawned => fresh (.inl spawned)

/-- Spawning the task of the entry held at the capacity wait. -/
theorem History.spawn {state : State} (history : History state) {peer : Peer}
    {rest : List Peer} (here : state.coordinator = .capacity peer rest) :
    History { state with
      coordinator := .batch rest, activeTasks := state.activeTasks + 1
      tasks := state.tasks ++ [⟨peer, .connecting⟩] } := by
  have tested := history.tested
  have heldFresh := history.heldFresh
  rw [here] at tested heldFresh
  have fresh : peer ∉ state.examined := by
    rw [← history.mem_spawned]
    exact heldFresh peer (by simp [Coordinator.held])
  have split := history.past (by rw [here]; rfl)
  have examined := examined_eq { state with coordinator := .batch rest } split
  refine ⟨history.channel, ?_, ?_, fun other => ?_, fun other held => ?_⟩
  · exact split.trans (congrArg (· ++ rest) examined.symm)
  · change (state.tasks ++ [(⟨peer, .connecting⟩ : Task)]).map Task.peer =
      (State.examined { state with coordinator := .batch rest }).eraseDups
    rw [examined, eraseDups_concat_of_not_mem fresh, ← history.spawned]
    simp [State.spawned]
  · change other ∈ state.testedPeers ↔
      other ∈ (state.tasks ++ [(⟨peer, .connecting⟩ : Task)]).map Task.peer ∨ other ∈ []
    rw [tested other]
    simp [State.spawned, Coordinator.held]
  · cases held

theorem history_coordinatorStep {config : SessionConfig} {state next : State}
    (rule : CoordinatorStep config state next) (history : History state) : History next := by
  have channel := history.channel
  have position := history.position
  cases rule with
  | take peers rest here queued =>
      have position : state.taken.flatten = state.examined := by
        simpa [here, Coordinator.remaining] using position
      refine history.move ?_ ?_ rfl rfl (by rw [here]; rfl) rfl
      · rw [channel, queued]
        simp
      · rw [List.flatten_append, position]
        simp [Coordinator.remaining]
  | duplicate peer rest here known => exact history.duplicate here known
  | insertPeer peer rest here fresh => exact history.insertPeer here fresh
  | reap peer rest result done here atCapacity queued =>
      exact ⟨channel, position, history.spawned, history.tested, history.heldFresh⟩
  | spawn peer rest here below => exact history.spawn here
  | _ =>
      refine history.move channel ?_ rfl rfl ?_ rfl
      · simp only [Coordinator.remaining, *] at position ⊢
      · simp only [Coordinator.held, *]

theorem history_transition {session : Session} {state next : State} {action : Action}
    (transition : Transition session state action next) (history : History state) :
    History next := by
  cases transition with
  | coordinator rule => exact history_coordinatorStep rule history
  | @task index task phase effect found rule =>
      have spawned := spawned_setTask found phase
      refine ⟨?_, ?_, ?_, ?_, ?_⟩
      · simp [State.setTask, history.channel]
      · simpa [State.setTask, State.examined] using history.position
      · rw [emit_spawned, emit_examined, spawned]
        exact history.spawned
      · rw [emit_spawned, emit_testedPeers, emit_coordinator, spawned]
        exact history.tested
      · rw [emit_spawned, emit_coordinator, spawned]
        exact history.heldFresh
  | receive isOpen queued =>
      exact ⟨history.channel, history.position, history.spawned, history.tested,
        history.heldFresh⟩
  | hangUp isOpen =>
      exact ⟨history.channel, history.position, history.spawned, history.tested,
        history.heldFresh⟩

theorem history_run {session : Session} {Allowed : State → Action → Prop}
    {seed : Peer} {actions : List Action} {state : State}
    (run : (machine session).Run Allowed (coordinate session.config seed) actions state) :
    History state :=
  run_invariant History (fun _ transition => history_transition transition) run
    (history_coordinate session.config seed)

end BitcoinPeers.Crawler

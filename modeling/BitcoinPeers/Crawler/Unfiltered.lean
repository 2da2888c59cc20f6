import BitcoinPeers.Crawler.History
import BitcoinPeers.Foundation.Simulation

/-!
Contract: the session without the filter of `process()`.

Owns:
- the machine in which a task sends every non-empty `get_peers` result as it is;
- batches that bring the coordinator the same news, or none, given what is
  tested;
- what a coordinator does with such batches, in either session.

Does not own: the relation between the states of the two sessions.
-/

namespace BitcoinPeers.Crawler

open BitcoinPeers.Foundation

/-! ## The machine -/

/-- One step of a task that does not filter. -/
def Task.advanceUnfiltered (session : Session) (state : State) (task : Task) :
    Option (TaskPhase × Effect) :=
  match task.phase with
  | .filtering discoveredPeers => some (.sendingPeers discoveredPeers, .internal)
  | _ => task.advance session state

def stepTaskUnfiltered (session : Session) (state : State) (index : Nat) : Option State :=
  match state.tasks[index]? with
  | none => none
  | some task =>
      match task.advanceUnfiltered session state with
      | none => none
      | some (phase, effect) =>
          some ((state.setTask index ⟨task.peer, phase⟩).emit index effect)

def stepUnfiltered (session : Session) (state : State) : Action → Option State
  | .task index => stepTaskUnfiltered session state index
  | action => step session state action

/-- The session without the filter as a machine. -/
def unfiltered (session : Session) : Machine State Action := ⟨stepUnfiltered session⟩

/-- The rules of a task that does not filter. -/
inductive UnfilteredStep (session : Session) (state : State) (task : Task) :
    TaskPhase → Effect → Prop where
  | shared {phase : TaskPhase} {effect : Effect}
      (point : ∀ discovered, task.phase ≠ .filtering discovered)
      (rule : TaskStep session state task phase effect) :
      UnfilteredStep session state task phase effect
  | pass (discovered : List Peer) (position : task.phase = .filtering discovered) :
      UnfilteredStep session state task (.sendingPeers discovered) .internal

theorem advanceUnfiltered_iff {session : Session} {state : State} {task : Task}
    {phase : TaskPhase} {effect : Effect} :
    task.advanceUnfiltered session state = some (phase, effect) ↔
      UnfilteredStep session state task phase effect := by
  constructor
  · intro advanced
    unfold Task.advanceUnfiltered at advanced
    split at advanced
    next discovered position =>
      cases advanced
      exact .pass discovered position
    next point => exact .shared point (taskStep_of_advance advanced)
  · intro rule
    cases rule with
    | shared point rule =>
        unfold Task.advanceUnfiltered
        split
        next discovered position => exact absurd position (point discovered)
        next => exact advance_of_rule rule
    | pass discovered position => simp [Task.advanceUnfiltered, position]

section Steps

variable {session : Session} {state next : State}

theorem unfiltered_task {index : Nat} {task : Task} {phase : TaskPhase} {effect : Effect}
    (found : state.tasks[index]? = some task)
    (rule : UnfilteredStep session state task phase effect) :
    (unfiltered session).step state (.task index) =
      some ((state.setTask index ⟨task.peer, phase⟩).emit index effect) := by
  change stepTaskUnfiltered session state index = _
  simp [stepTaskUnfiltered, found, advanceUnfiltered_iff.mpr rule]

/-- Every step of the session without the filter. -/
inductive UnfilteredTransition (session : Session) (state : State) : Action → State → Prop where
  | coordinator {next : State} (rule : CoordinatorStep session.config state next) :
      UnfilteredTransition session state .coordinator next
  | task {index : Nat} {task : Task} {phase : TaskPhase} {effect : Effect}
      (found : state.tasks[index]? = some task)
      (rule : UnfilteredStep session state task phase effect) :
      UnfilteredTransition session state (.task index)
        ((state.setTask index ⟨task.peer, phase⟩).emit index effect)
  | receive {message : CrawlerMessage} {rest : List CrawlerMessage}
      (isOpen : state.crawlOpen = true) (queued : state.crawl = message :: rest) :
      UnfilteredTransition session state .receive { state with crawl := rest }
  | hangUp (isOpen : state.crawlOpen = true) :
      UnfilteredTransition session state .hangUp { state with crawlOpen := false, crawl := [] }

theorem unfilteredTransition_of_step {action : Action}
    (stepped : (unfiltered session).step state action = some next) :
    UnfilteredTransition session state action next := by
  cases action with
  | coordinator => exact .coordinator (coordinatorStep_of_step stepped)
  | task index =>
      change stepTaskUnfiltered session state index = some next at stepped
      unfold stepTaskUnfiltered at stepped
      split at stepped
      next => contradiction
      next task found =>
        split at stepped
        next => contradiction
        next phase effect advanced =>
          cases stepped
          exact .task found (advanceUnfiltered_iff.mp advanced)
  | receive =>
      change (machine session).step state .receive = some next at stepped
      cases transition_of_step stepped with
      | receive isOpen queued => exact .receive isOpen queued
  | hangUp =>
      change (machine session).step state .hangUp = some next at stepped
      cases transition_of_step stepped with
      | hangUp isOpen => exact .hangUp isOpen

variable (session) in
/-- The caller's steps are those of the session. -/
theorem unfiltered_receive {message : CrawlerMessage} {rest : List CrawlerMessage}
    (isOpen : state.crawlOpen = true) (queued : state.crawl = message :: rest) :
    (unfiltered session).step state .receive = some { state with crawl := rest } := by
  have stepped : (machine session).step state .receive = some { state with crawl := rest } :=
    step_of_transition (.receive isOpen queued)
  exact stepped

variable (session) in
theorem unfiltered_hangUp (isOpen : state.crawlOpen = true) :
    (unfiltered session).step state .hangUp =
      some { state with crawlOpen := false, crawl := [] } := by
  have stepped : (machine session).step state .hangUp =
      some { state with crawlOpen := false, crawl := [] } :=
    step_of_transition (.hangUp isOpen)
  exact stepped

end Steps

/-- A machine whose coordinator is that of the session. -/
def Coordinates (config : SessionConfig) (system : Machine State Action) : Prop :=
  ∀ state, system.step state .coordinator = stepCoordinator config state

theorem coordinates_machine (session : Session) :
    Coordinates session.config (machine session) := fun _ => rfl

theorem coordinates_unfiltered (session : Session) :
    Coordinates session.config (unfiltered session) := fun _ => rfl

/-! ## News -/

/-- Two batches hold the same untested peers in the same order. -/
def SameNews (tested : Finset Peer) (left right : List Peer) : Prop :=
  filterTested tested left = filterTested tested right

/-- A batch holds no untested peer. -/
def NoNews (tested : Finset Peer) (peers : List Peer) : Prop :=
  filterTested tested peers = []

section News

variable {tested wider : Finset Peer} {left right peers : List Peer}

@[simp] theorem filterTested_cons_of_mem {peer : Peer} (known : peer ∈ tested) :
    filterTested tested (peer :: peers) = filterTested tested peers := by
  simp [filterTested, known]

@[simp] theorem filterTested_cons_of_notMem {peer : Peer} (fresh : peer ∉ tested) :
    filterTested tested (peer :: peers) = peer :: filterTested tested peers := by
  simp [filterTested, fresh]

/-- Filtering with fewer tested peers first changes nothing. -/
theorem filterTested_filterTested (grown : tested ⊆ wider) (peers : List Peer) :
    filterTested wider (filterTested tested peers) = filterTested wider peers := by
  unfold filterTested
  rw [List.filter_filter]
  apply List.filter_congr
  intro peer _
  by_cases late : peer ∈ wider
  · simp [late]
  · have early : peer ∉ tested := fun known => late (grown known)
    simp [late, early]

theorem SameNews.mono (grown : tested ⊆ wider) (same : SameNews tested left right) :
    SameNews wider left right := by
  unfold SameNews at *
  rw [← filterTested_filterTested grown left, same, filterTested_filterTested grown right]

theorem NoNews.mono (grown : tested ⊆ wider) (none : NoNews tested peers) :
    NoNews wider peers := by
  unfold NoNews at *
  rw [← filterTested_filterTested grown peers, none]
  rfl

end News

/-! ## The coordinator on batches -/

section Batches

variable {config : SessionConfig} {system : Machine State Action} {state : State}

theorem Coordinates.reaches (shared : Coordinates config system) {next : State}
    (rule : CoordinatorStep config state next) : system.Reaches state next :=
  .of_step ((shared state).trans (stepCoordinator_of_rule rule))

/-- Tested entries are passed over. -/
theorem Coordinates.skip (shared : Coordinates config system) (seen rest : List Peer)
    (position : state.coordinator = .batch (seen ++ rest))
    (known : ∀ peer ∈ seen, peer ∈ state.testedPeers) :
    system.Reaches state { state with coordinator := .batch rest } := by
  induction seen generalizing state with
  | nil =>
      have same : { state with coordinator := Coordinator.batch rest } = state := by
        rw [List.nil_append] at position
        rw [← position]
      rw [same]
      exact .refl state
  | cons peer seen inductionHypothesis =>
      have first := shared.reaches (.duplicate peer (seen ++ rest) position
        (known peer List.mem_cons_self))
      exact first.trans (inductionHypothesis rfl fun other member =>
        known other (List.mem_cons_of_mem _ member))

/-- A batch without news leads back to the top of the loop. -/
theorem Coordinates.finishBatch (shared : Coordinates config system) {peers : List Peer}
    (position : state.coordinator = .batch peers) (none : NoNews state.testedPeers peers) :
    system.Reaches state { state with coordinator := .top } := by
  have known : ∀ peer ∈ peers, peer ∈ state.testedPeers := by
    simpa [NoNews, filterTested] using none
  have skipped := shared.skip peers [] (by rw [position, List.append_nil]) known
  exact skipped.trans (shared.reaches (.batchEnd rfl))

/-- The first peer with news is inserted. -/
theorem Coordinates.insertNews (shared : Coordinates config system) {peers news : List Peer}
    {peer : Peer} (position : state.coordinator = .batch peers)
    (first : filterTested state.testedPeers peers = peer :: news) :
    ∃ rest, filterTested state.testedPeers rest = news ∧
      system.Reaches state
        { state with
          coordinator := .capacity peer rest
          testedPeers := insert peer state.testedPeers } := by
  obtain ⟨seen, rest, split, known, fresh, later⟩ := List.filter_eq_cons_iff.mp first
  refine ⟨rest, later, ?_⟩
  have skipped := shared.skip seen (peer :: rest) (by rw [position, split])
    (by simpa using known)
  exact skipped.trans (shared.reaches (.insertPeer peer rest rfl (by simpa using fresh)))

/-- Queued batches without news are taken and leave the coordinator at the top
of the loop. -/
theorem Coordinates.drain (shared : Coordinates config system) {pads rest : List (List Peer)}
    (position : state.coordinator = .top) (isOpen : state.crawlOpen = true)
    (queued : state.peerDiscovery = pads ++ rest)
    (none : ∀ peers ∈ pads, NoNews state.testedPeers peers) :
    system.Reaches state
      { state with peerDiscovery := rest, taken := state.taken ++ pads } := by
  induction pads generalizing state with
  | nil =>
      have same : { state with peerDiscovery := rest, taken := state.taken ++ [] } = state := by
        rw [List.nil_append] at queued
        rw [List.append_nil, ← queued]
      rw [same]
      exact .refl state
  | cons peers pads inductionHypothesis =>
      have takes : system.Reaches { state with coordinator := .pollDiscovery }
          { state with
            coordinator := .batch peers, peerDiscovery := pads ++ rest
            taken := state.taken ++ [peers] } :=
        shared.reaches (.take peers (pads ++ rest) rfl queued)
      have finishes : system.Reaches
          { state with
            coordinator := .batch peers, peerDiscovery := pads ++ rest
            taken := state.taken ++ [peers] }
          { state with
            coordinator := .top, peerDiscovery := pads ++ rest
            taken := state.taken ++ [peers] } :=
        shared.finishBatch rfl (none peers List.mem_cons_self)
      have later : system.Reaches
          { state with
            coordinator := .top, peerDiscovery := pads ++ rest
            taken := state.taken ++ [peers] }
          { state with
            coordinator := .top, peerDiscovery := rest
            taken := state.taken ++ [peers] ++ pads } :=
        inductionHypothesis rfl isOpen rfl fun other member =>
          none other (List.mem_cons_of_mem _ member)
      have drained := (((shared.reaches (.proceed position isOpen)).trans takes).trans
        finishes).trans later
      rw [List.append_assoc, ← position] at drained
      exact drained

end Batches

end BitcoinPeers.Crawler

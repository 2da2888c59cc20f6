import BitcoinPeers.Crawler.FilterRelation

/-!
Contract: the session without the filter can follow the session.

Owns the simulation in which a task that does not filter holds back a batch
without news until the session has received the task's result. The batch is then
drained before the next hang-up check that the session passes.

Does not own: the other direction.
-/

namespace BitcoinPeers.Crawler

open BitcoinPeers.Foundation

/-! ## The session followed by the session without the filter -/

/-- The task has nothing left to send but its result. -/
def TaskPhase.settled : TaskPhase → Bool
  | .finishing _ | .finished _ => true
  | _ => false

/-- The points of a task that does not filter while it follows one that does: it
holds back a batch without news, and its result. -/
inductive Lags (tested : Finset Peer) : TaskPhase → TaskPhase → Prop where
  | early (phase : TaskPhase) (point : phase.early = true) : Lags tested phase phase
  | filtering (discovered : List Peer) :
      Lags tested (.filtering discovered) (.filtering discovered)
  | sending {left right : List Peer} (same : SameNews tested left right) :
      Lags tested (.sendingPeers left) (.sendingPeers right)
  | idle {phase : TaskPhase} (point : phase.settled = true) {peers : List Peer}
      (none : NoNews tested peers) : Lags tested phase (.sendingPeers peers)
  | finishing {phase : TaskPhase} (point : phase.settled = true) (result : TaskResult) :
      Lags tested phase (.finishing result)
  | finished (left right : TaskResult) : Lags tested (.finished left) (.finished right)

theorem Lags.mono {tested wider : Finset Peer} {left right : TaskPhase} (grown : tested ⊆ wider)
    (lags : Lags tested left right) : Lags wider left right := by
  cases lags with
  | early _ point => exact .early _ point
  | filtering discovered => exact .filtering discovered
  | sending same => exact .sending (same.mono grown)
  | idle point none => exact .idle point (none.mono grown)
  | finishing point result => exact .finishing point result
  | finished first second => exact .finished first second

theorem Lags.of_afterEarly {tested : Finset Peer} {phase : TaskPhase}
    (point : phase.afterEarly = true) : Lags tested phase phase := by
  cases phase with
  | filtering discovered => exact .filtering discovered
  | finishing result => exact .finishing rfl result
  | _ => exact .early _ point

/-- How the session without the filter follows a task step, with its coordinator
and completion channel as they are. -/
structure LagStep (session : Session) (filtered after other next : State) : Prop where
  reaches : (unfiltered session).Reaches other next
  alike : Alike Lags after next
  coordinator : next.coordinator = other.coordinator
  taskDone : next.taskDone = other.taskDone
  running : next.runningTasks = other.runningTasks
  aligned : Aligned (SameNews filtered.testedPeers) (NoNews filtered.testedPeers)
      filtered.peerDiscovery other.peerDiscovery →
    Aligned (SameNews after.testedPeers) (NoNews after.testedPeers)
      after.peerDiscovery next.peerDiscovery

section Lag

variable {session : Session} {filtered other : State} {index : Nat} {peer : Peer}
  {left right point : TaskPhase} {effect answer : Effect}

/-- The session without the filter answers with a step that keeps its task
running. -/
theorem lag_answer (alike : Alike Lags filtered other)
    (across : other.tasks[index]? = some ⟨peer, right⟩)
    (rule : UnfilteredStep session other ⟨peer, right⟩ point answer)
    (running : right.running = true ∧ point.running = true)
    (lags : Lags filtered.testedPeers left point) (quiet : answer.results = [])
    (messages : answer.messages = effect.messages)
    (batches : (effect.batches = [] ∧ answer.batches = []) ∨
      ∃ sent received, SameNews filtered.testedPeers sent received ∧
        effect.batches = [sent] ∧ answer.batches = [received]) :
    LagStep session filtered ((filtered.setTask index ⟨peer, left⟩).emit index effect) other
      ((other.setTask index ⟨peer, point⟩).emit index answer) where
  reaches := .of_step (unfiltered_task across rule)
  alike := by
    apply alike.advance index peer lags messages
    rcases batches with ⟨none, silent⟩ | ⟨sent, received, same, first, second⟩
    · rw [none, silent, List.append_nil, List.append_nil]
      exact alike.peerDiscovery
    · rw [first, second]
      exact alike.peerDiscovery.concat same
  coordinator := by simp [State.setTask]
  taskDone := by simp [State.setTask, quiet]
  running := by
    have moved := runningTasks_setTask across point
    rw [running.1, running.2] at moved
    rw [emit_runningTasks]
    simpa using moved
  aligned := by
    intro aligned
    rw [emit_testedPeers, emit_peerDiscovery, emit_peerDiscovery]
    change Aligned _ _ (filtered.peerDiscovery ++ _) (other.peerDiscovery ++ _)
    rcases batches with ⟨none, silent⟩ | ⟨sent, received, same, first, second⟩
    · rw [none, silent, List.append_nil, List.append_nil]
      exact aligned
    · rw [first, second]
      exact aligned.concat same

/-- The session without the filter waits. -/
theorem lag_wait (alike : Alike Lags filtered other)
    (across : other.tasks[index]? = some ⟨peer, right⟩)
    (lags : Lags filtered.testedPeers left right) (messages : effect.messages = [])
    (batches : effect.batches = []) :
    LagStep session filtered ((filtered.setTask index ⟨peer, left⟩).emit index effect) other
      other where
  reaches := .refl other
  alike := alike.advanceLeft across lags messages batches
  coordinator := rfl
  taskDone := rfl
  running := rfl
  aligned := by
    intro aligned
    rw [emit_testedPeers, emit_peerDiscovery, batches, List.append_nil]
    exact aligned

theorem running_of_afterEarly {phase : TaskPhase} (point : phase.afterEarly = true) :
    phase.running = true := by
  cases phase <;> first | rfl | cases point

theorem finishing_of_settled {phase : TaskPhase} (settled : phase.settled = true)
    (running : phase.running = true) : ∃ result, phase = .finishing result := by
  cases phase with
  | finishing result => exact ⟨result, rfl⟩
  | finished result => cases running
  | _ => cases settled

/-- Every task step of the session is followed. -/
theorem lag_taskStep (alike : Alike Lags filtered other)
    (live : filtered.coordinator.isExited = false)
    (otherLive : other.coordinator.isExited = false) {task : Task}
    (found : filtered.tasks[index]? = some task)
    (rule : TaskStep session filtered task left effect) :
    ∃ next, LagStep session filtered
      ((filtered.setTask index ⟨task.peer, left⟩).emit index effect) other next := by
  obtain ⟨⟨peer, right⟩, across, samePeer, lags⟩ := forall₂_getElem? alike.tasks found
  obtain ⟨_, phase⟩ := task
  change _ = peer at samePeer
  subst samePeer
  change Lags filtered.testedPeers phase right at lags
  cases lags with
  | early _ early =>
      obtain ⟨mirrored, after, silent, quiet⟩ :=
        rule.mirror early alike.crawlPort alike.crawlOpen
      have unfiltered : ∀ discovered, right ≠ .filtering discovered := by
        rintro discovered rfl
        cases early
      exact ⟨_, lag_answer alike across (.shared unfiltered mirrored)
        ⟨mirrored.was_running, running_of_afterEarly after⟩ (.of_afterEarly after) quiet rfl
        (.inl ⟨silent, silent⟩)⟩
  | filtering discovered =>
      obtain ⟨rfl, rfl | ⟨rfl, none⟩⟩ := rule.of_filtering rfl
      · exact ⟨_, lag_answer alike across (.pass discovered rfl) ⟨rfl, rfl⟩
          (.sending (filterTested_filterTested subset_rfl discovered)) rfl rfl
          (.inl ⟨rfl, rfl⟩)⟩
      · exact ⟨_, lag_answer alike across (.pass discovered rfl) ⟨rfl, rfl⟩
          (.idle rfl none) rfl rfl (.inl ⟨rfl, rfl⟩)⟩
  | @sending sent received same =>
      obtain ⟨rfl, rfl⟩ := rule.of_sendingPeers live rfl
      exact ⟨_, lag_answer alike across
        (.shared nofun (.discover received rfl otherLive)) ⟨rfl, rfl⟩ (.finishing rfl _) rfl rfl
        (.inr ⟨sent, received, same, rfl, rfl⟩)⟩
  | idle settled none =>
      obtain ⟨result, rfl⟩ := finishing_of_settled settled rule.was_running
      obtain ⟨rfl, rfl, -⟩ := rule.of_finishing live rfl
      exact ⟨other, lag_wait alike across (.idle rfl none) rfl rfl⟩
  | finishing settled result =>
      obtain ⟨result, rfl⟩ := finishing_of_settled settled rule.was_running
      obtain ⟨rfl, rfl, -⟩ := rule.of_finishing live rfl
      exact ⟨other, lag_wait alike across (.finishing rfl _) rfl rfl⟩
  | finished first second => cases rule.was_running

/-- A task of the session without the filter that waits with its result delivers
it. -/
theorem lag_deliver (alike : Alike Lags filtered other)
    (otherLive : other.coordinator.isExited = false) (results : other.taskDone = [])
    (room : 0 < session.config.maxConcurrentTasks) {delivered result : TaskResult}
    (found : filtered.tasks[index]? = some ⟨peer, .finished delivered⟩)
    (across : other.tasks[index]? = some ⟨peer, .finishing result⟩) :
    ∃ next, (unfiltered session).Reaches other next ∧ Alike Lags filtered next ∧
      next.coordinator = other.coordinator ∧ next.taskDone = [result] ∧
      next.runningTasks + 1 = other.runningTasks := by
  have rule : UnfilteredStep session other ⟨peer, .finishing result⟩ (.finished result)
      (.deliver result) :=
    .shared nofun (.deliver result rfl otherLive (by rw [results]; exact room))
  refine ⟨_, .of_step (unfiltered_task across rule),
    alike.advanceRight found (.finished delivered result) rfl ?_, ?_, ?_, ?_⟩
  · simpa [Effect.batches] using alike.peerDiscovery
  · simp [State.setTask]
  · simp [State.setTask, results, Effect.results]
  · have moved := runningTasks_setTask across (.finished result)
    rw [emit_runningTasks]
    simpa [TaskPhase.running] using moved

/-- While the session has delivered more results, the session without the filter
can deliver one, after the batch it holds back. -/
theorem lag_finish (alike : Alike Lags filtered other)
    (otherLive : other.coordinator.isExited = false) (results : other.taskDone = [])
    (room : 0 < session.config.maxConcurrentTasks)
    (fewer : filtered.runningTasks < other.runningTasks) :
    ∃ next result, (unfiltered session).Reaches other next ∧ Alike Lags filtered next ∧
      next.coordinator = other.coordinator ∧ next.taskDone = [result] ∧
      next.runningTasks + 1 = other.runningTasks := by
  obtain ⟨index, ⟨peer, left⟩, ⟨_, right⟩, found, across, ⟨rfl, lags⟩, done, running⟩ :=
    forall₂_countP_lt alike.tasks fewer
  change left.running = false at done
  change right.running = true at running
  change Lags filtered.testedPeers left right at lags
  have delivered : left.settled = true → ∃ result, left = .finished result := by
    intro settled
    cases left with
    | finished result => exact ⟨result, rfl⟩
    | finishing result => cases done
    | _ => cases settled
  cases lags with
  | early => rw [done] at running; cases running
  | filtering => cases done
  | sending => cases done
  | @idle _ settled peers none =>
      obtain ⟨result, rfl⟩ := delivered settled
      have rule : UnfilteredStep session other ⟨peer, .sendingPeers peers⟩
          (.finishing .foundPeers) (.discover peers) :=
        .shared nofun (.discover peers rfl otherLive)
      have moved := runningTasks_setTask across (.finishing .foundPeers)
      have sent : Alike Lags filtered
          ((other.setTask index ⟨peer, .finishing .foundPeers⟩).emit index (.discover peers)) :=
        alike.advanceRight found (.finishing rfl .foundPeers) rfl
          (alike.peerDiscovery.concat_idle none)
      obtain ⟨next, reaches, after, coordinator, taskDone, left⟩ :=
        lag_deliver sent (by simpa [State.setTask] using otherLive)
          (by simpa [State.setTask, Effect.results] using results) room found
          (moved_task across _ _)
      refine ⟨next, _, (Machine.Reaches.of_step (unfiltered_task across rule)).trans reaches,
        after, ?_, taskDone, ?_⟩
      · simpa [State.setTask] using coordinator
      · rw [left, emit_runningTasks]
        simpa [TaskPhase.running] using moved
  | finishing settled result =>
      obtain ⟨first, rfl⟩ := delivered settled
      obtain ⟨next, reaches, after, coordinator, taskDone, left⟩ :=
        lag_deliver alike otherLive results room found across
      exact ⟨next, result, reaches, after, coordinator, taskDone, left⟩
  | finished => cases running

end Lag

/-- The session without the filter is where the session is, except that it holds
back results and batches without news. -/
structure Lagging (filtered other : State) : Prop where
  alike : Alike Lags filtered other
  point : SamePoint filtered.testedPeers filtered.coordinator other.coordinator
  front : filtered.coordinator.isSelecting = true →
    Aligned (SameNews filtered.testedPeers) (NoNews filtered.testedPeers)
      filtered.peerDiscovery other.peerDiscovery
  results : other.taskDone = []
  running : other.runningTasks = other.activeTasks

/-- The session without the filter can follow the session to `next`. -/
def Followed (session : Session) (other next : State) : Prop :=
  ∃ following, (unfiltered session).Reaches other following ∧
    (Lagging next following ∨ Ended next following)

section Lagging

variable {session : Session} {filtered next other : State}

/-- A result that the session has received was sent by a task that the session
without the filter still runs. -/
theorem Lagging.finish (lagging : Lagging filtered other)
    (accounting : Accounting session.config filtered)
    (queued : filtered.taskDone ≠ []) :
    ∃ ready result, (unfiltered session).Reaches other ready ∧ Alike Lags filtered ready ∧
      ready.coordinator = other.coordinator ∧ ready.taskDone = [result] ∧
      ready.runningTasks + 1 = ready.activeTasks := by
  have balance := accounting.counter lagging.point.symm.live
  have bound := accounting.bound
  have some : 0 < filtered.taskDone.length := List.length_pos_of_ne_nil queued
  have active := lagging.alike.activeTasks
  have running := lagging.running
  have room : 0 < session.config.maxConcurrentTasks := by omega
  obtain ⟨ready, result, reaches, alike, coordinator, taskDone, left⟩ :=
    lag_finish lagging.alike lagging.point.live lagging.results room (by omega)
  exact ⟨ready, result, reaches, alike, coordinator, taskDone, by
    rw [left, running, active, alike.activeTasks]⟩

/-- Batches without news are drained before the hang-up check. -/
theorem Lagging.proceed (lagging : Lagging filtered other)
    (position : filtered.coordinator = .top) (isOpen : filtered.crawlOpen = true) :
    Followed session other { filtered with coordinator := .pollDiscovery } := by
  have shared := coordinates_unfiltered session
  have alike := lagging.alike
  have top : other.coordinator = .top := by
    have point := lagging.point
    rw [position] at point
    exact point.eq rfl
  have otherOpen := alike.crawlOpen.trans isOpen
  obtain ⟨pads, rest, split, none, aligned⟩ := alike.peerDiscovery.exists_aligned
  rw [← alike.testedPeers] at none
  have drained := shared.drain top otherOpen split none
  refine ⟨_, drained.trans (shared.reaches (.proceed top otherOpen)), .inl ?_⟩
  exact ⟨alike.requeue _ _ aligned.padded _ _, .pollDiscovery, fun _ => aligned,
    lagging.results, lagging.running⟩

theorem Lagging.take (lagging : Lagging filtered other) {peers : List Peer}
    {rest : List (List Peer)} (position : filtered.coordinator = .pollDiscovery)
    (queued : filtered.peerDiscovery = peers :: rest) :
    Followed session other
      { filtered with
        coordinator := .batch peers, peerDiscovery := rest
        taken := filtered.taken ++ [peers] } := by
  have point := lagging.point
  have aligned := lagging.front (by rw [position]; rfl)
  rw [position] at point
  rw [queued] at aligned
  generalize waiting : other.peerDiscovery = batches at aligned
  cases aligned with
  | @pair _ received _ later same padded =>
      refine ⟨_, (coordinates_unfiltered session).reaches
        (.take received later (point.eq rfl) waiting), .inl ?_⟩
      exact ⟨lagging.alike.requeue _ _ padded _ _, .batch same, nofun, lagging.results,
        lagging.running⟩

theorem Lagging.discoveryPending (lagging : Lagging filtered other)
    (position : filtered.coordinator = .pollDiscovery) (empty : filtered.peerDiscovery = []) :
    Followed session other { filtered with coordinator := .pollDone } := by
  have point := lagging.point
  have aligned := lagging.front (by rw [position]; rfl)
  rw [position] at point
  have waiting : other.peerDiscovery = [] := by
    rw [empty] at aligned
    generalize other.peerDiscovery = batches at aligned
    cases aligned
    rfl
  refine ⟨_, (coordinates_unfiltered session).reaches
    (.discoveryPending (point.eq rfl) waiting), .inl ?_⟩
  exact ⟨lagging.alike.place _ _, .pollDone, fun _ => aligned, lagging.results, lagging.running⟩

theorem Lagging.exhaust (lagging : Lagging filtered other)
    (accounting : Accounting session.config filtered) {result : TaskResult}
    {rest : List TaskResult} (position : filtered.coordinator = .pollDone)
    (queued : filtered.taskDone = result :: rest) (last : filtered.activeTasks - 1 = 0) :
    Followed session other
      { filtered with
        coordinator := .exited .exhausted, activeTasks := filtered.activeTasks - 1
        taskDone := rest } := by
  have point := lagging.point
  rw [position] at point
  obtain ⟨ready, received, reaches, after, coordinator, taskDone, left⟩ :=
    lagging.finish accounting (by simp [queued])
  have rule : CoordinatorStep session.config ready _ :=
    .exhaust received [] (coordinator.trans (point.eq rfl)) taskDone
      (by rw [after.activeTasks]; exact last)
  refine ⟨_, reaches.trans ((coordinates_unfiltered session).reaches rule), .inr ?_⟩
  exact ⟨⟨.exhausted, rfl, rfl⟩, after.spawned, after.testedPeers, after.crawlOpen⟩

theorem Lagging.complete (lagging : Lagging filtered other)
    (accounting : Accounting session.config filtered) {result : TaskResult}
    {rest : List TaskResult} (position : filtered.coordinator = .pollDone)
    (queued : filtered.taskDone = result :: rest) (more : filtered.activeTasks - 1 ≠ 0) :
    Followed session other
      { filtered with
        coordinator := .top, activeTasks := filtered.activeTasks - 1, taskDone := rest } := by
  have point := lagging.point
  rw [position] at point
  obtain ⟨ready, received, reaches, after, coordinator, taskDone, left⟩ :=
    lagging.finish accounting (by simp [queued])
  have rule : CoordinatorStep session.config ready _ :=
    .complete received [] (coordinator.trans (point.eq rfl)) taskDone
      (by rw [after.activeTasks]; exact more)
  refine ⟨_, reaches.trans ((coordinates_unfiltered session).reaches rule), .inl ?_⟩
  refine ⟨after.release _ _ _ _, .top, nofun, rfl, ?_⟩
  change ready.runningTasks = ready.activeTasks - 1
  omega

/-- The first untested entries of related batches are the same. -/
theorem Lagging.insertPeer (lagging : Lagging filtered other) {peer : Peer} {rest : List Peer}
    (position : filtered.coordinator = .batch (peer :: rest))
    (fresh : peer ∉ filtered.testedPeers) :
    Followed session other
      { filtered with
        coordinator := .capacity peer rest
        testedPeers := insert peer filtered.testedPeers } := by
  have alike := lagging.alike
  have point := lagging.point
  rw [position] at point
  obtain ⟨others, there, same⟩ := point.of_batch
  rw [SameNews, filterTested_cons_of_notMem fresh, ← alike.testedPeers] at same
  obtain ⟨later, news, reaches⟩ :=
    (coordinates_unfiltered session).insertNews there same.symm
  refine ⟨_, reaches, .inl ?_⟩
  refine ⟨alike.insertPeer Lags.mono peer _ _, ?_, nofun, lagging.results, lagging.running⟩
  refine .capacity peer (SameNews.mono (Finset.subset_insert _ _) ?_)
  rw [alike.testedPeers] at news
  exact news.symm

theorem Lagging.reap (lagging : Lagging filtered other)
    (accounting : Accounting session.config filtered) {peer : Peer} {rest : List Peer}
    {result : TaskResult} {done : List TaskResult}
    (position : filtered.coordinator = .capacity peer rest)
    (atCapacity : session.config.maxConcurrentTasks ≤ filtered.activeTasks)
    (queued : filtered.taskDone = result :: done) :
    Followed session other
      { filtered with activeTasks := filtered.activeTasks - 1, taskDone := done } := by
  have point := lagging.point
  rw [position] at point
  obtain ⟨others, there, same⟩ := point.of_capacity
  obtain ⟨ready, received, reaches, after, coordinator, taskDone, left⟩ :=
    lagging.finish accounting (by simp [queued])
  have rule : CoordinatorStep session.config ready _ :=
    .reap peer others received [] (coordinator.trans there)
      (by rw [after.activeTasks]; exact atCapacity) taskDone
  refine ⟨_, reaches.trans ((coordinates_unfiltered session).reaches rule), .inl ?_⟩
  refine ⟨after.release _ _ _ _, ?_, ?_, rfl, ?_⟩
  · change SamePoint filtered.testedPeers filtered.coordinator ready.coordinator
    rw [coordinator]
    exact lagging.point
  · change filtered.coordinator.isSelecting = true → _
    rw [position]
    exact nofun
  · change ready.runningTasks = ready.activeTasks - 1
    omega

theorem Lagging.spawn (lagging : Lagging filtered other) {peer : Peer} {rest : List Peer}
    (position : filtered.coordinator = .capacity peer rest)
    (below : filtered.activeTasks < session.config.maxConcurrentTasks) :
    Followed session other
      { filtered with
        coordinator := .batch rest, activeTasks := filtered.activeTasks + 1
        tasks := filtered.tasks ++ [⟨peer, .connecting⟩] } := by
  have alike := lagging.alike
  have point := lagging.point
  rw [position] at point
  obtain ⟨others, there, same⟩ := point.of_capacity
  have rule : CoordinatorStep session.config other _ :=
    .spawn peer others there (by rw [alike.activeTasks]; exact below)
  refine ⟨_, (coordinates_unfiltered session).reaches rule, .inl ?_⟩
  refine ⟨alike.spawn peer (.early _ rfl) _ _, .batch same, nofun, lagging.results, ?_⟩
  have running := lagging.running
  simp only [State.runningTasks, List.countP_append, List.countP_singleton,
    TaskPhase.running, if_true] at running ⊢
  omega

theorem lag_coordinatorStep (lagging : Lagging filtered other)
    (accounting : Accounting session.config filtered)
    (rule : CoordinatorStep session.config filtered next) : Followed session other next := by
  have shared := coordinates_unfiltered session
  have alike := lagging.alike
  have point := lagging.point
  cases rule with
  | hangUp position closed =>
      rw [position] at point
      refine ⟨_, shared.reaches (.hangUp (point.eq rfl) (alike.crawlOpen.trans closed)), .inr ?_⟩
      exact ⟨⟨.hungUp, rfl, rfl⟩, alike.spawned, alike.testedPeers, alike.crawlOpen⟩
  | proceed position isOpen => exact lagging.proceed position isOpen
  | take peers rest position queued => exact lagging.take position queued
  | discoveryPending position empty => exact lagging.discoveryPending position empty
  | exhaust result rest position queued last =>
      exact lagging.exhaust accounting position queued last
  | complete result rest position queued more =>
      exact lagging.complete accounting position queued more
  | donePending position empty =>
      have aligned := lagging.front (by rw [position]; rfl)
      rw [position] at point
      refine ⟨_, shared.reaches (.donePending (point.eq rfl) lagging.results), .inl ?_⟩
      exact ⟨alike.place _ _, .pollDiscovery, fun _ => aligned, lagging.results, lagging.running⟩
  | batchEnd position =>
      rw [position] at point
      obtain ⟨others, there, same⟩ := point.of_batch
      have none : NoNews other.testedPeers others := by
        rw [alike.testedPeers]
        exact Eq.symm same
      refine ⟨_, shared.finishBatch there none, .inl ?_⟩
      exact ⟨alike.place _ _, .top, nofun, lagging.results, lagging.running⟩
  | duplicate peer rest position known =>
      rw [position] at point
      obtain ⟨others, there, same⟩ := point.of_batch
      refine ⟨other, .refl other, .inl ?_⟩
      refine ⟨alike.place _ _, ?_, nofun, lagging.results, lagging.running⟩
      rw [there]
      refine .batch ?_
      rw [SameNews, filterTested_cons_of_mem known] at same
      exact same
  | insertPeer peer rest position fresh => exact lagging.insertPeer position fresh
  | reap peer rest result done position atCapacity queued =>
      exact lagging.reap accounting position atCapacity queued
  | spawn peer rest position below => exact lagging.spawn position below

/-- Every step of the session is followed, or both have left the loop. -/
theorem lag_transition {action : Action} (related : Lagging filtered other ∨ Ended filtered other)
    (accounting : Accounting session.config filtered)
    (transition : Transition session filtered action next) : Followed session other next := by
  rcases related with lagging | ended
  · have alike := lagging.alike
    cases transition with
    | coordinator rule => exact lag_coordinatorStep lagging accounting rule
    | task found rule =>
        obtain ⟨following, moved⟩ :=
          lag_taskStep alike lagging.point.symm.live lagging.point.live found rule
        refine ⟨following, moved.reaches, .inl ⟨moved.alike, ?_, fun selecting => ?_, ?_, ?_⟩⟩
        · rw [emit_testedPeers, emit_coordinator, moved.coordinator]
          exact lagging.point
        · rw [emit_coordinator] at selecting
          exact moved.aligned (lagging.front selecting)
        · rw [moved.taskDone, lagging.results]
        · rw [moved.running, lagging.running, moved.alike.activeTasks, emit_activeTasks,
            alike.activeTasks]
          rfl
    | receive isOpen queued =>
        have stepped := unfiltered_receive session (alike.crawlOpen.trans isOpen)
          (alike.crawl.trans queued)
        refine ⟨_, .of_step stepped, .inl ⟨?_, lagging.point, lagging.front, lagging.results,
          lagging.running⟩⟩
        exact ⟨alike.activeTasks, alike.testedPeers, rfl, alike.crawlOpen, alike.tasks,
          alike.peerDiscovery⟩
    | hangUp isOpen =>
        have stepped := unfiltered_hangUp session (alike.crawlOpen.trans isOpen)
        refine ⟨_, .of_step stepped, .inl ⟨?_, lagging.point, lagging.front, lagging.results,
          lagging.running⟩⟩
        exact ⟨alike.activeTasks, alike.testedPeers, rfl, rfl, alike.tasks,
          alike.peerDiscovery⟩
  · cases transition with
    | coordinator rule => exact (ended.no_coordinatorStep rule).elim
    | task found rule => exact ⟨other, .refl other, .inr (ended.advance found _ _)⟩
    | receive isOpen queued =>
        exact ⟨other, .refl other, .inr ⟨ended.exits, ended.spawned, ended.testedPeers,
          ended.crawlOpen⟩⟩
    | hangUp isOpen =>
        have stepped := unfiltered_hangUp session (ended.crawlOpen.trans isOpen)
        exact ⟨_, .of_step stepped, .inr ⟨ended.exits, ended.spawned, ended.testedPeers, rfl⟩⟩

/-- The session without the filter can follow every run of the session. -/
theorem lag_run {Allowed : State → Action → Prop} {seed : Peer} {actions : List Action}
    {state : State}
    (run : (machine session).Run Allowed (coordinate session.config seed) actions state) :
    Followed session (coordinate session.config seed) state := by
  have initially : Followed session (coordinate session.config seed)
      (coordinate session.config seed) := by
    refine ⟨_, .refl _, ?_⟩
    by_cases none : session.config.maxConcurrentTasks = 0
    · exact .inr (ended_coordinate none seed)
    · have top := coordinate_top none seed
      refine .inl ⟨alike_coordinate session.config seed, ?_, ?_, ?_, ?_⟩
      · rw [top]
        exact .top
      · rw [top]
        exact nofun
      all_goals simp [coordinate, none, State.runningTasks]
  exact (run_invariant (fun state => Accounting session.config state ∧
      Followed session (coordinate session.config seed) state)
    (fun _ transition holds => by
      obtain ⟨accounting, following, reached, related⟩ := holds
      obtain ⟨after, reaches, still⟩ := lag_transition related accounting transition
      exact ⟨accounting_transition transition accounting, after, reached.trans reaches, still⟩)
    run ⟨accounting_coordinate session.config seed, initially⟩).2

end Lagging

end BitcoinPeers.Crawler

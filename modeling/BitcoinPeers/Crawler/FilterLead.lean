import BitcoinPeers.Crawler.FilterLag

/-!
Contract: the session can follow the session without the filter, and the two
spawn the same peers.

Owns:
- the simulation in which a task filters when the task that does not filter
  sends its batch;
- the two positions in which a coordinator in `select!` is matched: in `select!`
  as well, and still at the top of the loop. If the next batch brings no news it
  is passed over from the top of the loop, and otherwise it is taken, so which of
  the two positions is needed is known only then;
- the equivalence of the two sessions.

Does not own: the direction that `FilterLag` has.
-/

namespace BitcoinPeers.Crawler

open BitcoinPeers.Foundation

/-! ## Tasks -/

/-- The points of a task that filters while it follows one that does not. -/
inductive Leads (tested : Finset Peer) : TaskPhase → TaskPhase → Prop where
  | early (phase : TaskPhase) (point : phase.early = true) : Leads tested phase phase
  | filtering (discovered : List Peer) :
      Leads tested (.filtering discovered) (.filtering discovered)
  | sending (discovered : List Peer) :
      Leads tested (.filtering discovered) (.sendingPeers discovered)
  | finishing (left right : TaskResult) : Leads tested (.finishing left) (.finishing right)
  | finished (left right : TaskResult) : Leads tested (.finished left) (.finished right)

theorem Leads.mono {tested wider : Finset Peer} {left right : TaskPhase} (_ : tested ⊆ wider)
    (leads : Leads tested left right) : Leads wider left right := by
  cases leads with
  | early _ point => exact .early _ point
  | filtering discovered => exact .filtering discovered
  | sending discovered => exact .sending discovered
  | finishing first second => exact .finishing first second
  | finished first second => exact .finished first second

theorem Leads.of_afterEarly {tested : Finset Peer} {phase : TaskPhase}
    (point : phase.afterEarly = true) : Leads tested phase phase := by
  cases phase with
  | filtering discovered => exact .filtering discovered
  | finishing result => exact .finishing result result
  | _ => exact .early _ point

/-- The session has as many results queued as the session without the filter. -/
structure Leading (filtered other : State) : Prop where
  alike : Alike Leads filtered other
  results : filtered.taskDone.length = other.taskDone.length

theorem UnfilteredStep.was_running {session : Session} {state : State} {task : Task}
    {phase : TaskPhase} {effect : Effect}
    (rule : UnfilteredStep session state task phase effect) : task.phase.running = true := by
  cases rule with
  | shared point rule => exact rule.was_running
  | pass discovered position => rw [position]; rfl

section Lead

variable {session : Session} {filtered other : State} {index : Nat} {peer : Peer}
  {left right point : TaskPhase} {effect answer : Effect}

/-- A task step does not depend on where the coordinator is in its loop. -/
theorem emit_place (state : State) (place : Coordinator) (task : Task) :
    (({ state with coordinator := place } : State).setTask index task).emit index effect =
      { (state.setTask index task).emit index effect with coordinator := place } := by
  cases effect <;> rfl

/-- How the session follows a task step, wherever its coordinator is. -/
structure LeadStep (session : Session) (filtered next after : State) : Prop where
  leading : Leading next after
  coordinator : next.coordinator = filtered.coordinator
  reaches : ∀ place : Coordinator, place.isExited = false →
    (machine session).Reaches { filtered with coordinator := place }
      { next with coordinator := place }

/-- The session answers with one step. -/
theorem lead_answer (leading : Leading filtered other)
    (found : filtered.tasks[index]? = some ⟨peer, left⟩)
    (rule : ∀ place : Coordinator, place.isExited = false →
      TaskStep session { filtered with coordinator := place } ⟨peer, left⟩ point answer)
    (points : Leads filtered.testedPeers point right)
    (results : answer.results.length = effect.results.length)
    (messages : effect.messages = answer.messages)
    (batches : Padded (SameNews filtered.testedPeers) (NoNews filtered.testedPeers)
      (filtered.peerDiscovery ++ answer.batches) (other.peerDiscovery ++ effect.batches)) :
    LeadStep session filtered ((filtered.setTask index ⟨peer, point⟩).emit index answer)
      ((other.setTask index ⟨peer, right⟩).emit index effect) where
  leading := by
    refine ⟨leading.alike.advance index peer points messages batches, ?_⟩
    simp [State.setTask, leading.results, results]
  coordinator := by simp [State.setTask]
  reaches := by
    intro place live
    have there : ({ filtered with coordinator := place } : State).tasks[index]? =
        some ⟨peer, left⟩ := found
    rw [← emit_place]
    exact .of_step (step_of_transition (.task there (rule place live)))

/-- The session waits. -/
theorem lead_wait (leading : Leading filtered other)
    (found : filtered.tasks[index]? = some ⟨peer, left⟩)
    (points : Leads filtered.testedPeers left right) :
    LeadStep session filtered filtered
      ((other.setTask index ⟨peer, right⟩).emit index .internal) where
  leading := by
    refine ⟨leading.alike.advanceRight found points rfl ?_, ?_⟩
    · simpa [Effect.batches] using leading.alike.peerDiscovery
    · simpa [State.setTask, Effect.results] using leading.results
  coordinator := rfl
  reaches := fun _ _ => .refl _

/-- A task that has peers left after the filter sends them in two steps. -/
theorem reaches_send {state : State} {discovered : List Peer}
    (live : state.coordinator.isExited = false)
    (found : state.tasks[index]? = some ⟨peer, .filtering discovered⟩)
    (news : filterTested state.testedPeers discovered ≠ []) :
    (machine session).Reaches state
      ((state.setTask index ⟨peer, .finishing .foundPeers⟩).emit index
        (.discover (filterTested state.testedPeers discovered))) := by
  have filters : Transition session state (.task index)
      ((state.setTask index
        ⟨peer, .sendingPeers (filterTested state.testedPeers discovered)⟩).emit index .internal) :=
    .task found (.filteredSome discovered rfl news)
  generalize filterTested state.testedPeers discovered = peers at filters ⊢
  have sends : Transition session
      ((state.setTask index ⟨peer, .sendingPeers peers⟩).emit index .internal) (.task index)
      ((((state.setTask index ⟨peer, .sendingPeers peers⟩).emit index .internal).setTask index
        ⟨peer, .finishing .foundPeers⟩).emit index (.discover peers)) :=
    .task (moved_task found _ .internal)
      (.discover peers rfl (by simpa [State.setTask] using live))
  have both := (Machine.Reaches.of_step (step_of_transition filters)).step
    (step_of_transition sends)
  simpa [State.setTask, State.emit] using both

/-- The session filters and sends what is left. -/
theorem lead_send (leading : Leading filtered other) {discovered : List Peer}
    (found : filtered.tasks[index]? = some ⟨peer, .filtering discovered⟩)
    (news : filterTested filtered.testedPeers discovered ≠ []) :
    LeadStep session filtered
      ((filtered.setTask index ⟨peer, .finishing .foundPeers⟩).emit index
        (.discover (filterTested filtered.testedPeers discovered)))
      ((other.setTask index ⟨peer, .finishing .foundPeers⟩).emit index (.discover discovered))
      where
  leading := by
    refine ⟨leading.alike.advance index peer (.finishing _ _) rfl ?_, ?_⟩
    · exact leading.alike.peerDiscovery.concat
        (filterTested_filterTested subset_rfl discovered)
    · simpa [State.setTask, Effect.results] using leading.results
  coordinator := by simp [State.setTask]
  reaches := by
    intro place live
    have there : ({ filtered with coordinator := place } : State).tasks[index]? =
        some ⟨peer, .filtering discovered⟩ := found
    rw [← emit_place]
    exact reaches_send live there news

/-- Every task step of the session without the filter is followed. -/
theorem lead_taskStep (leading : Leading filtered other)
    (otherLive : other.coordinator.isExited = false) {task : Task}
    (found : other.tasks[index]? = some task)
    (rule : UnfilteredStep session other task right effect) :
    ∃ next, LeadStep session filtered next
      ((other.setTask index ⟨task.peer, right⟩).emit index effect) := by
  have alike := leading.alike
  obtain ⟨⟨peer, left⟩, across, samePeer, leads⟩ := forall₂_getElem? alike.tasks.flip found
  obtain ⟨_, phase⟩ := task
  change peer = _ at samePeer
  subst samePeer
  change Leads filtered.testedPeers left phase at leads
  cases leads with
  | early _ early =>
      cases rule with
      | pass discovered position =>
          cases position
          cases early
      | shared point rule =>
          have mirrored : ∀ place : Coordinator,
              TaskStep session { filtered with coordinator := place } ⟨peer, left⟩ right effect ∧
                right.afterEarly = true ∧ effect.batches = [] ∧ effect.results = [] :=
            fun _ => rule.mirror early (Eq.symm alike.crawlPort) alike.crawlOpen.symm
          obtain ⟨-, after, silent, -⟩ := mirrored .top
          refine ⟨_, lead_answer leading across (fun place _ => (mirrored place).1)
            (.of_afterEarly after) rfl rfl ?_⟩
          rw [silent, List.append_nil, List.append_nil]
          exact alike.peerDiscovery
  | filtering discovered =>
      cases rule with
      | shared point rule => exact absurd rfl (point discovered)
      | pass found position =>
          cases position
          exact ⟨filtered, lead_wait leading across (.sending discovered)⟩
  | sending discovered =>
      cases rule with
      | pass discovered position => cases position
      | shared point rule =>
          obtain ⟨rfl, rfl⟩ := rule.of_sendingPeers otherLive rfl
          by_cases none : filterTested filtered.testedPeers discovered = []
          · refine ⟨_, lead_answer leading across
              (fun place live => .filteredNone discovered rfl none) (.finishing _ _) rfl rfl ?_⟩
            simpa [Effect.batches] using alike.peerDiscovery.concat_idle none
          · exact ⟨_, lead_send leading across none⟩
  | finishing first second =>
      cases rule with
      | pass discovered position => cases position
      | shared point rule =>
          obtain ⟨rfl, rfl, room⟩ := rule.of_finishing otherLive rfl
          rw [← leading.results] at room
          refine ⟨_, lead_answer leading across
            (fun place live => .deliver first rfl live room) (.finished _ _) rfl rfl ?_⟩
          simpa [Effect.batches] using alike.peerDiscovery
  | finished first second => cases rule.was_running

end Lead

/-! ## Coordinators -/

/-- The session's coordinator is at the same point, or at the top of the loop
while the other passes over a batch without news. -/
def LeadPoint (tested : Finset Peer) (left right : Coordinator) : Prop :=
  SamePoint tested left right ∨
    (left = .top ∧ ∃ peers, right = .batch peers ∧ NoNews tested peers)

theorem LeadPoint.eq {tested : Finset Peer} {left right : Coordinator}
    (point : LeadPoint tested left right) (outside : right.isProcessing = false) :
    left = right := by
  rcases point with same | ⟨-, peers, rfl, -⟩
  · exact same.symm.eq outside
  · cases outside

theorem LeadPoint.live {tested : Finset Peer} {left right : Coordinator}
    (point : LeadPoint tested left right) : left.isExited = false ∧ right.isExited = false := by
  rcases point with same | ⟨rfl, peers, rfl, -⟩
  · exact ⟨same.symm.live, same.live⟩
  · exact ⟨rfl, rfl⟩

/-- A reachable state of the session that matches a state of the session without
the filter. While the other is in `select!` the same state with the coordinator
at the top of the loop is reachable as well. -/
structure Covers (session : Session) (seed : Peer) (filtered other : State) : Prop where
  reached : (machine session).Reaches (coordinate session.config seed) filtered
  leading : Leading filtered other
  point : LeadPoint filtered.testedPeers filtered.coordinator other.coordinator
  back : other.coordinator.isSelecting = true →
    (machine session).Reaches (coordinate session.config seed)
      { filtered with coordinator := .top }

/-- The session can be where the session without the filter is. -/
def Covered (session : Session) (seed : Peer) (other : State) : Prop :=
  ∃ filtered, Covers session seed filtered other ∨
    ((machine session).Reaches (coordinate session.config seed) filtered ∧
      Ended filtered other)

section Covers

variable {session : Session} {seed : Peer} {filtered other next : State}

/-- Where the session without the filter has a result queued, so has the
session. -/
theorem exists_result {left right : List TaskResult} (same : left.length = right.length)
    {result : TaskResult} {rest : List TaskResult} (queued : right = result :: rest) :
    ∃ received later, left = received :: later ∧ later.length = rest.length := by
  subst queued
  cases left with
  | nil => cases same
  | cons received later => exact ⟨received, later, rfl, Nat.succ.inj same⟩

theorem Covers.proceed (covers : Covers session seed filtered other)
    (position : other.coordinator = .top) (isOpen : other.crawlOpen = true) :
    Covered session seed { other with coordinator := .pollDiscovery } := by
  have alike := covers.leading.alike
  have top : filtered.coordinator = .top := by
    have point := covers.point
    rw [position] at point
    exact point.eq rfl
  have proceeds := (coordinates_machine session).reaches
    (.proceed top (alike.crawlOpen.symm.trans isOpen))
  refine ⟨_, .inl ⟨covers.reached.trans proceeds, ⟨alike.place _ _, covers.leading.results⟩,
    .inl .pollDiscovery, fun _ => ?_⟩⟩
  rw [← top]
  exact covers.reached

/-- A batch with news is taken from `select!`; one without is passed over from the
top of the loop. -/
theorem Covers.take (covers : Covers session seed filtered other) {peers : List Peer}
    {rest : List (List Peer)} (position : other.coordinator = .pollDiscovery)
    (queued : other.peerDiscovery = peers :: rest) :
    Covered session seed
      { other with
        coordinator := .batch peers, peerDiscovery := rest
        taken := other.taken ++ [peers] } := by
  have alike := covers.leading.alike
  have point := covers.point
  have back := covers.back
  rw [position] at point back
  have padded := alike.peerDiscovery
  rw [queued] at padded
  generalize waiting : filtered.peerDiscovery = batches at padded
  cases padded with
  | @pair sent _ later _ same padded =>
      have takes := (coordinates_machine session).reaches
        (.take sent later (point.eq rfl) waiting)
      exact ⟨_, .inl ⟨covers.reached.trans takes,
        ⟨alike.requeue _ _ padded _ _, covers.leading.results⟩, .inl (.batch same), nofun⟩⟩
  | pad none padded =>
      rw [← waiting] at padded
      exact ⟨_, .inl ⟨back rfl, ⟨alike.requeue .top _ padded filtered.taken _,
        covers.leading.results⟩, .inr ⟨rfl, peers, rfl, none⟩, nofun⟩⟩

theorem Covers.complete (covers : Covers session seed filtered other) {result : TaskResult}
    {rest : List TaskResult} (position : other.coordinator = .pollDone)
    (queued : other.taskDone = result :: rest) (more : other.activeTasks - 1 ≠ 0) :
    Covered session seed
      { other with
        coordinator := .top, activeTasks := other.activeTasks - 1, taskDone := rest } := by
  have alike := covers.leading.alike
  have point := covers.point
  rw [position] at point
  obtain ⟨received, later, waiting, same⟩ := exists_result covers.leading.results queued
  have completes := (coordinates_machine session).reaches
    (.complete received later (point.eq rfl) waiting (by rw [← alike.activeTasks]; exact more))
  exact ⟨_, .inl ⟨covers.reached.trans completes, ⟨alike.release _ _ _ _, same⟩, .inl .top,
    nofun⟩⟩

theorem Covers.duplicate (covers : Covers session seed filtered other) {peer : Peer}
    {rest : List Peer} (position : other.coordinator = .batch (peer :: rest))
    (known : peer ∈ other.testedPeers) :
    Covered session seed { other with coordinator := .batch rest } := by
  have alike := covers.leading.alike
  have point := covers.point
  rw [alike.testedPeers] at known
  rw [position] at point
  refine ⟨filtered, .inl ⟨covers.reached, ⟨alike.place _ _, covers.leading.results⟩, ?_, nofun⟩⟩
  rcases point with same | ⟨top, peers, there, none⟩
  · obtain ⟨others, there, news⟩ := same.symm.of_batch
    rw [SameNews, filterTested_cons_of_mem known] at news
    rw [there]
    exact .inl (.batch news.symm)
  · cases there
    rw [NoNews, filterTested_cons_of_mem known] at none
    exact .inr ⟨top, rest, rfl, none⟩

theorem Covers.insertPeer (covers : Covers session seed filtered other) {peer : Peer}
    {rest : List Peer} (position : other.coordinator = .batch (peer :: rest))
    (fresh : peer ∉ other.testedPeers) :
    Covered session seed
      { other with
        coordinator := .capacity peer rest, testedPeers := insert peer other.testedPeers } := by
  have alike := covers.leading.alike
  have point := covers.point
  rw [alike.testedPeers] at fresh
  rw [position] at point
  rcases point with same | ⟨top, peers, there, none⟩
  · obtain ⟨others, there, news⟩ := same.symm.of_batch
    rw [SameNews, filterTested_cons_of_notMem fresh] at news
    obtain ⟨later, left, inserts⟩ :=
      (coordinates_machine session).insertNews there news.symm
    exact ⟨_, .inl ⟨covers.reached.trans inserts,
      ⟨alike.insertPeer Leads.mono peer _ _, covers.leading.results⟩,
      .inl (.capacity peer (SameNews.mono (Finset.subset_insert _ _) left)),
      by simp [Coordinator.isSelecting]⟩⟩
  · cases there
    rw [NoNews, filterTested_cons_of_notMem fresh] at none
    cases none

theorem Covers.reap (covers : Covers session seed filtered other) {peer : Peer}
    {rest : List Peer} {result : TaskResult} {done : List TaskResult}
    (position : other.coordinator = .capacity peer rest)
    (atCapacity : session.config.maxConcurrentTasks ≤ other.activeTasks)
    (queued : other.taskDone = result :: done) :
    Covered session seed
      { other with activeTasks := other.activeTasks - 1, taskDone := done } := by
  have alike := covers.leading.alike
  have point := covers.point
  rw [position] at point
  rcases point with same | ⟨-, peers, there, -⟩
  · obtain ⟨others, there, news⟩ := same.symm.of_capacity
    obtain ⟨received, later, waiting, fewer⟩ := exists_result covers.leading.results queued
    have reaps := (coordinates_machine session).reaches (.reap peer others received later there
      (by rw [← alike.activeTasks]; exact atCapacity) waiting)
    refine ⟨_, .inl ⟨covers.reached.trans reaps, ⟨alike.release _ _ _ _, fewer⟩,
      covers.point, ?_⟩⟩
    change other.coordinator.isSelecting = true → _
    rw [position]
    exact nofun
  · cases there

theorem lead_coordinatorStep (covers : Covers session seed filtered other)
    (rule : CoordinatorStep session.config other next) : Covered session seed next := by
  have shared := coordinates_machine session
  have reached := covers.reached
  have alike := covers.leading.alike
  have results := covers.leading.results
  have point := covers.point
  have back := covers.back
  cases rule with
  | hangUp position closed =>
      rw [position] at point
      have leaves := shared.reaches (.hangUp (point.eq rfl) (alike.crawlOpen.symm.trans closed))
      refine ⟨_, .inr ⟨reached.trans leaves, ?_⟩⟩
      exact ⟨⟨.hungUp, rfl, rfl⟩, alike.spawned, alike.testedPeers, alike.crawlOpen⟩
  | proceed position isOpen => exact covers.proceed position isOpen
  | take peers rest position queued => exact covers.take position queued
  | discoveryPending position empty =>
      rw [position] at point back
      have padded := alike.peerDiscovery
      rw [empty] at padded
      have polls := shared.reaches (.discoveryPending (point.eq rfl) padded.left_nil)
      exact ⟨_, .inl ⟨reached.trans polls, ⟨alike.place _ _, results⟩, .inl .pollDone,
        fun _ => back rfl⟩⟩
  | exhaust result rest position queued last =>
      rw [position] at point
      obtain ⟨received, later, waiting, same⟩ := exists_result results queued
      have leaves := shared.reaches
        (.exhaust received later (point.eq rfl) waiting (by rw [← alike.activeTasks]; exact last))
      refine ⟨_, .inr ⟨reached.trans leaves, ?_⟩⟩
      exact ⟨⟨.exhausted, rfl, rfl⟩, alike.spawned, alike.testedPeers, alike.crawlOpen⟩
  | complete result rest position queued more => exact covers.complete position queued more
  | donePending position empty =>
      rw [position] at point back
      have waiting : filtered.taskDone = [] := by
        rw [empty] at results
        exact List.eq_nil_of_length_eq_zero results
      have polls := shared.reaches (.donePending (point.eq rfl) waiting)
      exact ⟨_, .inl ⟨reached.trans polls, ⟨alike.place _ _, results⟩, .inl .pollDiscovery,
        fun _ => back rfl⟩⟩
  | batchEnd position =>
      rw [position] at point
      rcases point with same | ⟨top, -⟩
      · obtain ⟨others, there, news⟩ := same.symm.of_batch
        have ends := shared.finishBatch there (Eq.symm news)
        exact ⟨_, .inl ⟨reached.trans ends, ⟨alike.place _ _, results⟩, .inl .top, nofun⟩⟩
      · refine ⟨filtered, .inl ⟨reached, ⟨alike.place _ _, results⟩, ?_, nofun⟩⟩
        rw [top]
        exact .inl .top
  | duplicate peer rest position known => exact covers.duplicate position known
  | insertPeer peer rest position fresh => exact covers.insertPeer position fresh
  | reap peer rest result done position atCapacity queued =>
      exact covers.reap position atCapacity queued
  | spawn peer rest position below =>
      rw [position] at point
      rcases point with same | ⟨-, peers, there, -⟩
      · obtain ⟨others, there, news⟩ := same.symm.of_capacity
        have spawns := shared.reaches (.spawn peer others there
          (by rw [← alike.activeTasks]; exact below))
        exact ⟨_, .inl ⟨reached.trans spawns, ⟨alike.spawn peer (.early _ rfl) _ _, results⟩,
          .inl (.batch news.symm), nofun⟩⟩
      · cases there

theorem lead_task (covers : Covers session seed filtered other) {index : Nat} {task : Task}
    {phase : TaskPhase} {effect : Effect} (found : other.tasks[index]? = some task)
    (rule : UnfilteredStep session other task phase effect) :
    Covered session seed ((other.setTask index ⟨task.peer, phase⟩).emit index effect) := by
  obtain ⟨live, otherLive⟩ := covers.point.live
  obtain ⟨following, moved⟩ := lead_taskStep covers.leading otherLive found rule
  have stays : { following with coordinator := filtered.coordinator } = following := by
    rw [← moved.coordinator]
  have reaches := moved.reaches filtered.coordinator live
  rw [stays] at reaches
  have tested : following.testedPeers = filtered.testedPeers := by
    rw [← moved.leading.alike.testedPeers, emit_testedPeers]
    exact covers.leading.alike.testedPeers
  refine ⟨following, .inl ⟨covers.reached.trans reaches, moved.leading, ?_, fun selecting => ?_⟩⟩
  · rw [tested, moved.coordinator, emit_coordinator]
    exact covers.point
  · rw [emit_coordinator] at selecting
    exact (covers.back selecting).trans (moved.reaches .top rfl)

theorem lead_receive (covers : Covers session seed filtered other) {message : CrawlerMessage}
    {rest : List CrawlerMessage} (isOpen : other.crawlOpen = true)
    (queued : other.crawl = message :: rest) :
    Covered session seed { other with crawl := rest } := by
  have alike := covers.leading.alike
  have receives : ∀ place : Coordinator,
      (machine session).step { filtered with coordinator := place } .receive =
        some { filtered with coordinator := place, crawl := rest } :=
    fun place => step_of_transition
      (.receive (alike.crawlOpen.symm.trans isOpen) (alike.crawl.symm.trans queued))
  refine ⟨{ filtered with crawl := rest }, .inl ⟨covers.reached.step (receives _),
    ⟨?_, covers.leading.results⟩, covers.point, fun selecting => ?_⟩⟩
  · exact ⟨alike.activeTasks, alike.testedPeers, rfl, alike.crawlOpen, alike.tasks,
      alike.peerDiscovery⟩
  · exact (covers.back selecting).step (receives .top)

theorem lead_hangUp (covers : Covers session seed filtered other)
    (isOpen : other.crawlOpen = true) :
    Covered session seed { other with crawlOpen := false, crawl := [] } := by
  have alike := covers.leading.alike
  have drops : ∀ place : Coordinator,
      (machine session).step { filtered with coordinator := place } .hangUp =
        some { filtered with coordinator := place, crawlOpen := false, crawl := [] } :=
    fun place => step_of_transition (.hangUp (alike.crawlOpen.symm.trans isOpen))
  refine ⟨{ filtered with crawlOpen := false, crawl := [] },
    .inl ⟨covers.reached.step (drops _), ⟨?_, covers.leading.results⟩, covers.point,
      fun selecting => ?_⟩⟩
  · exact ⟨alike.activeTasks, alike.testedPeers, rfl, rfl, alike.tasks, alike.peerDiscovery⟩
  · exact (covers.back selecting).step (drops .top)

/-- The session can follow every step of the session without the filter. -/
theorem covered_transition {action : Action} (covered : Covered session seed other)
    (transition : UnfilteredTransition session other action next) :
    Covered session seed next := by
  obtain ⟨filtered, covers | ⟨reached, ended⟩⟩ := covered
  · cases transition with
    | coordinator rule => exact lead_coordinatorStep covers rule
    | task found rule => exact lead_task covers found rule
    | receive isOpen queued => exact lead_receive covers isOpen queued
    | hangUp isOpen => exact lead_hangUp covers isOpen
  · cases transition with
    | coordinator rule => exact (ended.symm.no_coordinatorStep rule).elim
    | task found rule =>
        exact ⟨filtered, .inr ⟨reached, (ended.symm.advance found _ _).symm⟩⟩
    | receive isOpen queued =>
        exact ⟨filtered, .inr ⟨reached, ended.exits, ended.spawned, ended.testedPeers,
          ended.crawlOpen⟩⟩
    | hangUp isOpen =>
        have drops : (machine session).step filtered .hangUp =
            some { filtered with crawlOpen := false, crawl := [] } :=
          step_of_transition (.hangUp (ended.crawlOpen.symm.trans isOpen))
        exact ⟨_, .inr ⟨reached.step drops, ended.exits, ended.spawned, ended.testedPeers, rfl⟩⟩

theorem covered_coordinate (session : Session) (seed : Peer) :
    Covered session seed (coordinate session.config seed) := by
  refine ⟨coordinate session.config seed, ?_⟩
  by_cases none : session.config.maxConcurrentTasks = 0
  · exact .inr ⟨.refl _, ended_coordinate none seed⟩
  · have top := coordinate_top none seed
    refine .inl ⟨.refl _, ⟨alike_coordinate session.config seed, rfl⟩, ?_, ?_⟩
    · rw [top]
      exact .inl .top
    · rw [top]
      exact nofun

end Covers

/-! ## The equivalence -/

/-- How a coordinator has left its loop. -/
def Coordinator.exit : Coordinator → Option Exit
  | .exited reason => some reason
  | _ => none

/-- Two sessions have spawned the same peers in the same order, have tested the
same peers, have left the loop the same way if at all, and have or have not lost
their caller. -/
structure SameCrawl (left right : State) : Prop where
  spawned : right.spawned = left.spawned
  testedPeers : right.testedPeers = left.testedPeers
  exit : right.coordinator.exit = left.coordinator.exit
  crawlOpen : right.crawlOpen = left.crawlOpen

theorem exit_eq_none {coordinator : Coordinator} (live : coordinator.isExited = false) :
    coordinator.exit = none := by
  cases coordinator with
  | exited reason => cases live
  | _ => rfl

theorem Ended.sameCrawl {filtered other : State} (ended : Ended filtered other) :
    SameCrawl filtered other := by
  obtain ⟨reason, left, right⟩ := ended.exits
  exact ⟨ended.spawned, ended.testedPeers, by rw [left, right], ended.crawlOpen⟩

theorem Alike.sameCrawl {Points : Finset Peer → TaskPhase → TaskPhase → Prop}
    {filtered other : State} (alike : Alike Points filtered other)
    (left : filtered.coordinator.isExited = false)
    (right : other.coordinator.isExited = false) : SameCrawl filtered other :=
  ⟨alike.spawned, alike.testedPeers, by rw [exit_eq_none left, exit_eq_none right],
    alike.crawlOpen⟩

theorem SameCrawl.symm {left right : State} (same : SameCrawl left right) :
    SameCrawl right left :=
  ⟨same.spawned.symm, same.testedPeers.symm, same.exit.symm, same.crawlOpen.symm⟩

/-- For every run of the session there is a run of the session without the
filter with the same crawl, and the other way round. -/
theorem filter_preserves_crawls (session : Session) (seed : Peer) :
    (∀ actions state,
        (machine session).Run Machine.Always (coordinate session.config seed) actions state →
        ∃ others final, (unfiltered session).Run Machine.Always
          (coordinate session.config seed) others final ∧ SameCrawl state final) ∧
      (∀ actions state,
        (unfiltered session).Run Machine.Always (coordinate session.config seed) actions state →
        ∃ others final, (machine session).Run Machine.Always
          (coordinate session.config seed) others final ∧ SameCrawl state final) := by
  constructor
  · intro actions state run
    obtain ⟨final, ⟨others, follows⟩, lagging | ended⟩ := lag_run run
    · exact ⟨others, final, follows,
        lagging.alike.sameCrawl lagging.point.symm.live lagging.point.live⟩
    · exact ⟨others, final, follows, ended.sameCrawl⟩
  · intro actions state run
    have covered := run.invariant (Covered session seed)
      (fun _ stepped holds => covered_transition holds (unfilteredTransition_of_step stepped))
      (covered_coordinate session seed)
    obtain ⟨final, covers | ⟨⟨others, follows⟩, ended⟩⟩ := covered
    · obtain ⟨others, follows⟩ := covers.reached
      obtain ⟨left, right⟩ := covers.point.live
      exact ⟨others, final, follows, (covers.leading.alike.sameCrawl left right).symm⟩
    · exact ⟨others, final, follows, ended.sameCrawl.symm⟩

/-- A whole crawl of `pairSession`, without the filter. -/
theorem filter_preserves_crawls_pair :
    ∃ others final, (unfiltered pairSession).Run Machine.Always pairStart others final ∧
      final.spawned = [pairPeer 1, pairPeer 2] ∧ final.coordinator.exit = some .exhausted := by
  obtain ⟨state, run, passed⟩ := Machine.exists_run_of_execute (fun _ _ => true)
    (fun state => state.spawned = [pairPeer 1, pairPeer 2] ∧
      state.coordinator.exit = some .exhausted)
    (fun _ _ _ => trivial)
    (show ((machine pairSession).execute (fun _ _ => true) pairStart calmSchedule).any _ = true by
      decide)
  simp only [decide_eq_true_eq] at passed
  obtain ⟨others, final, follows, same⟩ :=
    (filter_preserves_crawls pairSession (pairPeer 1)).1 calmSchedule state run
  exact ⟨others, final, follows, same.spawned.trans passed.1, same.exit.trans passed.2⟩

end BitcoinPeers.Crawler

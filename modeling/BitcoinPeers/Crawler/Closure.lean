import BitcoinPeers.Crawler.Endpoints
import BitcoinPeers.Crawler.HangUp

/-!
Contract: the result of a crawl.

Owns the invariant that no answer of `get_peers` is dropped on its way from a
task to the discovery channel, and from it the result of an exhausted crawl: the
gossip closure of the seed, reported once per peer, whatever the schedule and
the number of concurrent tasks.

Does not own: schedules with a late delivery, whose crawls may be smaller.
-/

namespace BitcoinPeers.Crawler

open BitcoinPeers.Foundation

/-- The peers that processing a peer discovers. -/
def Session.answers (session : Session) (peer : Peer) : List Peer :=
  match session.connector session.config.peerTimeout peer with
  | .connected connection =>
      match connection.getPeers session.config.peerTimeout with
      | .ok discovered => discovered
      | .error _ => []
  | .refused _ | .timedOut => []

theorem mem_answers {session : Session} {peer other : Peer} :
    other ∈ session.answers peer ↔ ∃ connection discovered,
      session.connector session.config.peerTimeout peer = .connected connection ∧
        connection.getPeers session.config.peerTimeout = .ok discovered ∧ other ∈ discovered := by
  unfold Session.answers
  constructor
  · intro member
    split at member
    next connection answer =>
      split at member
      next discovered result => exact ⟨connection, discovered, answer, result, member⟩
      next => cases member
    next => cases member
    next => cases member
  · rintro ⟨connection, discovered, answer, result, member⟩
    simp only [answer, result]
    exact member

/-- A set with the seed that is closed under answers contains the closure. -/
theorem Gossip.mem_of_closed {session : Session} {seed : Peer} {Known : Peer → Prop}
    (seeded : Known seed)
    (closed : ∀ peer, Known peer → ∀ other ∈ session.answers peer, Known other) {peer : Peer}
    (gossip : Gossip session seed peer) : Known peer := by
  induction gossip with
  | start => exact seeded
  | heard known answer result member inductionHypothesis =>
      exact closed _ inductionHypothesis _ (mem_answers.mpr ⟨_, _, answer, result, member⟩)

/-! ## No answer is dropped -/

/-- The peer was tested, or is in a batch that was sent. -/
def State.Recorded (state : State) (peer : Peer) : Prop :=
  peer ∈ state.testedPeers ∨ ∃ peers ∈ state.sent, peer ∈ peers

/-- What a task for `peer` still holds of its answers at a program point. -/
def TaskPhase.Forwards (session : Session) (state : State) (peer : Peer) : TaskPhase → Prop
  | .connecting => True
  | .sendingNonListening => session.answers peer = []
  | .sendingListening connection | .gettingPeers connection =>
      session.connector session.config.peerTimeout peer = .connected connection
  | .filtering discovered => ∀ other ∈ session.answers peer, other ∈ discovered
  | .sendingPeers filtered =>
      ∀ other ∈ session.answers peer, other ∈ filtered ∨ state.Recorded other
  | .finishing _ | .finished _ | .panicked =>
      ∀ other ∈ session.answers peer, state.Recorded other

theorem State.Recorded.mono {state next : State} (tested : state.testedPeers ⊆ next.testedPeers)
    (sent : ∀ peers ∈ state.sent, peers ∈ next.sent) {peer : Peer}
    (recorded : state.Recorded peer) : next.Recorded peer := by
  rcases recorded with old | ⟨peers, here, member⟩
  · exact .inl (tested old)
  · exact .inr ⟨peers, sent peers here, member⟩

theorem TaskPhase.Forwards.mono {session : Session} {state next : State} {peer : Peer}
    {phase : TaskPhase} (grown : ∀ other, state.Recorded other → next.Recorded other)
    (forwards : phase.Forwards session state peer) : phase.Forwards session next peer := by
  cases phase with
  | sendingPeers filtered =>
      intro other member
      exact (forwards other member).imp id (grown other)
  | finishing result => exact fun other member => grown other (forwards other member)
  | finished result => exact fun other member => grown other (forwards other member)
  | panicked => exact fun other member => grown other (forwards other member)
  | _ => exact forwards

/-- A task that is done has passed on all of its answers. -/
theorem TaskPhase.Forwards.recorded {session : Session} {state : State} {peer : Peer}
    {phase : TaskPhase} (forwards : phase.Forwards session state peer)
    (settled : phase.running = false) : ∀ other ∈ session.answers peer, state.Recorded other := by
  cases phase with
  | finished result => exact forwards
  | panicked => exact forwards
  | _ => cases settled

/-- A task step before the exit passes on everything the task holds. -/
theorem TaskStep.forwards {session : Session} {state next : State} {task : Task}
    {phase : TaskPhase} {effect : Effect} (rule : TaskStep session state task phase effect)
    (isOpen : state.crawlOpen = true) (live : state.coordinator.isExited = false)
    (grown : ∀ other, state.Recorded other → next.Recorded other)
    (sent : ∀ peers ∈ effect.batches, peers ∈ next.sent)
    (forwards : task.phase.Forwards session state task.peer) :
    phase.Forwards session next task.peer := by
  cases rule with
  | connected connection position answer => exact answer
  | refused position answer =>
      change session.answers task.peer = []
      unfold Session.answers
      split
      next connection answered => exact absurd answered (answer connection)
      next => rfl
      next => rfl
  | crawlClosed position closed =>
      rw [isOpen] at closed
      cases closed
  | reportNonListening position port =>
      rw [position] at forwards
      intro other member
      rw [show session.answers task.peer = [] from forwards] at member
      cases member
  | reportListening connection position port =>
      rw [position] at forwards
      exact forwards
  | gotPeers connection discovered position answer nonempty =>
      rw [position] at forwards
      intro other member
      obtain ⟨same, found, connected, result, here⟩ := mem_answers.mp member
      rw [show session.connector _ _ = _ from forwards] at connected
      cases connected
      rw [answer] at result
      cases result
      exact here
  | gotNone connection position answer =>
      rw [position] at forwards
      intro other member
      obtain ⟨same, found, connected, result, here⟩ := mem_answers.mp member
      rw [show session.connector _ _ = _ from forwards] at connected
      cases connected
      rcases answer with empty | ⟨error, failed⟩
      · rw [empty] at result
        cases result
        cases here
      · rw [failed] at result
        cases result
  | filteredSome discovered position nonempty =>
      rw [position] at forwards
      intro other member
      by_cases tested : other ∈ state.testedPeers
      · exact .inr (grown other (.inl tested))
      · left
        exact List.mem_filter.mpr ⟨forwards other member, by simpa using tested⟩
  | filteredNone discovered position empty =>
      rw [position] at forwards
      intro other member
      apply grown
      left
      by_contra fresh
      have kept : other ∈ filterTested state.testedPeers discovered :=
        List.mem_filter.mpr ⟨forwards other member, by simpa using fresh⟩
      rw [empty] at kept
      cases kept
  | discoveryClosed filtered position exited =>
      rw [live] at exited
      cases exited
  | discover filtered position live =>
      rw [position] at forwards
      intro other member
      rcases forwards other member with here | recorded
      · exact .inr ⟨filtered, sent filtered List.mem_cons_self, here⟩
      · exact grown other recorded
  | panic result position exited =>
      rw [live] at exited
      cases exited
  | deliver result position live room =>
      rw [position] at forwards
      exact fun other member => grown other (forwards other member)

/-- Every task has passed on its answers, or still holds them; the seed was
sent. -/
structure Forwarding (session : Session) (seed : Peer) (state : State) : Prop where
  accounting : Accounting session.config state
  graceful : Graceful state
  isOpen : state.crawlOpen = true
  seeded : state.coordinator = .exited .panicked ∨ [seed] ∈ state.sent
  tasks : ∀ task ∈ state.tasks, task.phase.Forwards session state task.peer

theorem forwarding_coordinate (session : Session) (seed : Peer) :
    Forwarding session seed (coordinate session.config seed) := by
  have accounting := accounting_coordinate session.config seed
  have graceful := graceful_coordinate session.config seed
  revert accounting graceful
  unfold coordinate
  split
  · intro accounting graceful
    exact ⟨accounting, graceful, rfl, .inl rfl, fun task member => absurd member List.not_mem_nil⟩
  · intro accounting graceful
    exact ⟨accounting, graceful, rfl, .inr List.mem_cons_self,
      fun task member => absurd member List.not_mem_nil⟩

/-- What a step of the coordinator does to the records and the tasks. -/
theorem CoordinatorStep.grows {config : SessionConfig} {state next : State}
    (rule : CoordinatorStep config state next) :
    state.coordinator.isExited = false ∧ next.crawlOpen = state.crawlOpen ∧
      next.sent = state.sent ∧ state.testedPeers ⊆ next.testedPeers ∧
      ∀ task ∈ next.tasks, task ∈ state.tasks ∨ task.phase = .connecting := by
  have same : ∀ task ∈ state.tasks, task ∈ state.tasks ∨ task.phase = .connecting :=
    fun task member => .inl member
  cases rule with
  | insertPeer peer rest position fresh =>
      exact ⟨by rw [position]; rfl, rfl, rfl, Finset.subset_insert _ _, same⟩
  | spawn peer rest position below =>
      refine ⟨by rw [position]; rfl, rfl, rfl, Finset.Subset.refl _, fun task member => ?_⟩
      rcases List.mem_append.mp member with old | new
      · exact .inl old
      · rw [List.mem_singleton.mp new]
        exact .inr rfl
  | _ =>
      refine ⟨?_, rfl, rfl, Finset.Subset.refl _, same⟩
      simp only [Coordinator.isExited, *]

theorem forwarding_transition {session : Session} {seed : Peer} {state next : State}
    {action : Action} (kept : KeepsReceiver state action)
    (transition : Transition session state action next)
    (forwarding : Forwarding session seed state) : Forwarding session seed next := by
  have accounting := accounting_transition transition forwarding.accounting
  have patient : ¬ AbandonsTasks state action := by
    rintro ⟨-, -, closed, -⟩
    rw [forwarding.isOpen] at closed
    cases closed
  have graceful := graceful_transition patient transition forwarding.accounting forwarding.graceful
  cases transition with
  | coordinator rule =>
      obtain ⟨live, channel, sent, tested, tasks⟩ := rule.grows
      have grown : ∀ other, state.Recorded other → next.Recorded other := fun other =>
        State.Recorded.mono tested (by rw [sent]; exact fun _ member => member)
      refine ⟨accounting, graceful, channel.trans forwarding.isOpen, ?_, fun task member => ?_⟩
      · rw [sent]
        rcases forwarding.seeded with panicked | seeded
        · rw [panicked] at live
          cases live
        · exact .inr seeded
      · rcases tasks task member with old | new
        · exact (forwarding.tasks task old).mono grown
        · rw [new]
          trivial
  | @task index task phase effect found rule =>
      have running := runningTasks_pos found rule.was_running
      have live : state.coordinator.isExited = false := by
        by_contra exited
        have none := forwarding.graceful.settled (by simpa using exited)
        omega
      have grown : ∀ other, state.Recorded other →
          ((state.setTask index ⟨task.peer, phase⟩).emit index effect).Recorded other := by
        intro other
        apply State.Recorded.mono
        · rw [emit_testedPeers]
          exact Finset.Subset.refl _
        · rw [emit_sent]
          exact fun peers member => List.mem_append_left _ member
      refine ⟨accounting, graceful, ?_, ?_, fun other member => ?_⟩
      · rw [emit_crawlOpen]
        exact forwarding.isOpen
      · rw [emit_coordinator, emit_sent]
        exact forwarding.seeded.imp id fun seeded => List.mem_append_left _ seeded
      · rw [emit_tasks] at member
        rcases List.mem_or_eq_of_mem_set member with old | new
        · exact (forwarding.tasks other old).mono grown
        · rw [new]
          refine rule.forwards forwarding.isOpen live grown (fun peers sent => ?_)
            (forwarding.tasks task (List.mem_of_getElem? found))
          rw [emit_sent]
          exact List.mem_append_right _ sent
  | receive isOpen queued =>
      exact ⟨accounting, graceful, forwarding.isOpen, forwarding.seeded, fun task member =>
        (forwarding.tasks task member).mono fun _ recorded => recorded⟩
  | hangUp isOpen => exact absurd rfl kept

theorem forwarding_run {session : Session} {seed : Peer} {actions : List Action} {state : State}
    (run : (machine session).Run KeepsReceiver (coordinate session.config seed) actions state) :
    Forwarding session seed state :=
  run_invariant (Forwarding session seed)
    (fun kept transition => forwarding_transition kept transition) run
    (forwarding_coordinate session seed)

/-! ## The result of a crawl -/

/-- An exhausted crawl that has covered its batches has tested the closure. -/
theorem closure_tested {session : Session} {seed : Peer} {actions : List Action} {state : State}
    (run : (machine session).Run KeepsReceiver (coordinate session.config seed) actions state)
    (exited : state.coordinator = .exited .exhausted) (complete : CrawlComplete state)
    {peer : Peer} (gossip : Gossip session seed peer) : peer ∈ state.spawned := by
  have forwarding := forwarding_run run
  have history := history_run run
  have spawned : ∀ other, state.Recorded other → other ∈ state.spawned := by
    intro other recorded
    rcases recorded with tested | ⟨peers, sent, member⟩
    · rcases (history.tested other).mp tested with here | held
      · exact here
      · rw [exited] at held
        cases held
    · exact (complete.2 peers sent other member).2
  apply gossip.mem_of_closed
  · rcases forwarding.seeded with panicked | seeded
    · rw [exited] at panicked
      cases panicked
    · exact (complete.2 [seed] seeded seed List.mem_cons_self).2
  · intro source member other answered
    obtain ⟨task, inTasks, rfl⟩ := List.mem_map.mp member
    have settled := tasksSettled_of_quiet (forwarding.accounting.drained exited).1 task inTasks
    exact spawned other ((forwarding.tasks task inTasks).recorded settled other answered)

/-- A task that is done has reported once. -/
theorem messagesOf_settled {session : Session} {seed : Peer} {actions : List Action}
    {state : State}
    (run : (machine session).Run KeepsReceiver (coordinate session.config seed) actions state)
    {index : Nat} {task : Task} (found : state.tasks[index]? = some task)
    (settled : task.phase.running = false) :
    state.messagesOf index = [session.report task.peer] := by
  have past : task.phase.reported = true := by
    cases phase : task.phase <;> rw [phase] at settled <;> first | rfl | cases settled
  rcases (reported_run run).messages index task found with once | ⟨closed, -⟩
  · rw [once, if_pos past]
  · rw [crawlOpen_run run] at closed
    cases closed

/-- When all tasks are done the log has the report of every task, once. -/
theorem log_perm_reports {session : Session} {seed : Peer} {actions : List Action} {state : State}
    (run : (machine session).Run KeepsReceiver (coordinate session.config seed) actions state)
    (settled : state.runningTasks = 0) :
    (state.log.map Prod.snd).Perm (state.spawned.map session.report) := by
  have entries : ∀ index message, (index, message) ∈ state.log ↔
      (state.spawned.map session.report)[index]? = some message := by
    intro index message
    rw [← mem_messagesOf, State.spawned, List.getElem?_map, List.getElem?_map]
    cases found : state.tasks[index]? with
    | none =>
        rw [(reported_run run).unspawned index (List.getElem?_eq_none_iff.mp found)]
        simp
    | some task =>
        have done : task.phase.running = false := by
          by_contra running
          have some := runningTasks_pos found (by simpa using running)
          omega
        rw [messagesOf_settled run found done]
        simp [eq_comm]
  have nodup : (state.log.map Prod.swap).Nodup := by
    apply List.Nodup.of_map Prod.snd
    rw [List.map_map, List.nodup_iff_count_le_one]
    intro index
    change (state.log.map Prod.fst).count index ≤ 1
    rw [count_log_indices]
    exact messagesOf_length run index
  have indexed : (state.log.map Prod.swap).Perm (state.spawned.map session.report).zipIdx := by
    rw [List.perm_ext_iff_of_nodup nodup]
    · rintro ⟨message, index⟩
      rw [List.mem_zipIdx_iff_getElem?, ← entries]
      simp
    · apply List.Nodup.of_map Prod.snd
      rw [List.zipIdx_map_snd]
      exact List.nodup_range'
  have values := indexed.map Prod.fst
  rw [List.map_map, List.zipIdx_map_fst] at values
  exact values

/-- The closure depends on the network and the timeout only. -/
theorem Gossip.of_same_network {session other : Session} {seed peer : Peer}
    (connector : session.connector = other.connector)
    (peerTimeout : session.config.peerTimeout = other.config.peerTimeout)
    (gossip : Gossip session seed peer) : Gossip other seed peer := by
  induction gossip with
  | start => exact .start
  | heard known connected answer member inductionHypothesis =>
      rw [connector, peerTimeout] at connected
      rw [peerTimeout] at answer
      exact .heard inductionHypothesis connected answer member

theorem report_same_network {session other : Session}
    (connector : session.connector = other.connector)
    (peerTimeout : session.config.peerTimeout = other.config.peerTimeout) :
    session.report = other.report := by
  funext peer
  unfold Session.report
  rw [connector, peerTimeout]

/-- What an exhausted crawl without a late delivery has done. -/
structure CrawlResult (session : Session) (seed : Peer) (state : State) : Prop where
  tested : ∀ peer, peer ∈ state.testedPeers ↔ Gossip session seed peer
  spawned : ∀ peer, peer ∈ state.spawned ↔ Gossip session seed peer
  once : state.spawned.Nodup
  reported : (state.log.map Prod.snd).Perm (state.spawned.map session.report)

theorem crawlResult_of_orderly {session : Session} {seed : Peer} {actions : List Action}
    {state : State}
    (run : (machine session).Run OrderlyStep (coordinate session.config seed) actions state)
    (exited : state.coordinator = .exited .exhausted) : CrawlResult session seed state := by
  have kept := keepsReceiver_of_orderly run
  have history := history_run run
  have complete := complete_of_orderly run exited
  have spawned : ∀ peer, peer ∈ state.spawned ↔ Gossip session seed peer := fun peer =>
    ⟨gossip_spawned run, closure_tested kept exited complete⟩
  refine ⟨fun peer => ?_, spawned, nodup_spawned run,
    log_perm_reports kept ((accounting_run run).drained exited).1⟩
  rw [history.tested, exited, ← spawned]
  exact or_iff_left List.not_mem_nil

/-- An exhausted crawl without a late delivery has tested the closure of the
seed under `get_peers`, with one task and one report for each peer of it. Two
such crawls of one network, under any schedules and any two numbers of
concurrent tasks, have tested the same peers and sent the same messages up to
their order. -/
theorem exhausted_crawl_result (session : Session) (seed : Peer) {actions : List Action}
    {state : State}
    (run : (machine session).Run OrderlyStep (coordinate session.config seed) actions state)
    (exited : state.coordinator = .exited .exhausted) :
    CrawlResult session seed state ∧
      ∀ (other : Session) (schedule : List Action) (final : State),
        session.connector = other.connector →
        session.config.peerTimeout = other.config.peerTimeout →
        (machine other).Run OrderlyStep (coordinate other.config seed) schedule final →
        final.coordinator = .exited .exhausted →
        final.testedPeers = state.testedPeers ∧
          (final.log.map Prod.snd).Perm (state.log.map Prod.snd) := by
  have result := crawlResult_of_orderly run exited
  refine ⟨result, fun other schedule final connector peerTimeout again ended => ?_⟩
  have same := crawlResult_of_orderly again ended
  have closure : ∀ peer, Gossip other seed peer ↔ Gossip session seed peer := fun peer =>
    ⟨Gossip.of_same_network connector.symm peerTimeout.symm,
      Gossip.of_same_network connector peerTimeout⟩
  refine ⟨Finset.ext fun peer => ?_, ?_⟩
  · rw [same.tested, result.tested]
    exact closure peer
  · have peers : final.spawned.Perm state.spawned := by
      rw [List.perm_ext_iff_of_nodup same.once result.once]
      intro peer
      rw [same.spawned, result.spawned]
      exact closure peer
    calc (final.log.map Prod.snd).Perm (final.spawned.map other.report) := same.reported
      List.Perm _ (state.spawned.map other.report) := peers.map _
      List.Perm _ (state.spawned.map session.report) := by
        rw [report_same_network connector peerTimeout]
      List.Perm _ (state.log.map Prod.snd) := result.reported.symm

/-- A check for schedules without a late delivery. -/
def orderly (state : State) (action : Action) : Bool :=
  decide (action ≠ .hangUp ∧ (state.coordinator ≠ .pollDone ∨ state.peerDiscovery = []))

theorem orderly_sound (state : State) (action : Action) (passed : orderly state action = true) :
    OrderlyStep state action := by
  obtain ⟨kept, early⟩ := of_decide_eq_true passed
  refine ⟨kept, fun late => ?_⟩
  rcases early with elsewhere | empty
  · exact elsewhere late.1
  · exact late.2.2.1 empty

theorem exhausted_crawl_result_pair :
    ∃ state, (machine pairSession).Run OrderlyStep pairStart calmSchedule state ∧
      state.coordinator = .exited .exhausted ∧ CrawlResult pairSession (pairPeer 1) state := by
  obtain ⟨state, run, passed⟩ := Machine.exists_run_of_execute orderly
    (fun state => state.coordinator = .exited .exhausted) orderly_sound
    (show ((machine pairSession).execute orderly pairStart calmSchedule).any _ = true by decide)
  simp only [decide_eq_true_eq] at passed
  exact ⟨state, run, passed, (exhausted_crawl_result pairSession (pairPeer 1) run passed).1⟩

end BitcoinPeers.Crawler

import BitcoinPeers.Crawler.Closure
import BitcoinPeers.Crawler.Termination

/-!
Contract: when a crawl processes one network endpoint twice.

Owns:
- the schedules that bring a recorded peer, and from it every peer that gossip
  can name, to its task, from any point of a crawl without late deliveries;
- the exact condition on the gossip under which no crawl spawns two tasks for
  one endpoint.

Does not own: which values gossip attaches to an endpoint.
-/

namespace BitcoinPeers.Crawler

open BitcoinPeers.Foundation

/-! ## The peers ahead of a recorded one -/

/-- The peer is among entries of `reach` that the coordinator looks at before any
other. -/
def Ahead (reach : Finset Peer) (peer : Peer) (state : State) : Prop :=
  ∃ front back, state.peerDiscovery = front ++ back ∧
    (∀ other ∈ state.coordinator.remaining ++ front.flatten, other ∈ reach) ∧
    peer ∈ state.coordinator.remaining ++ front.flatten

/-- The peer has its task, or comes to it over entries of `reach`. -/
def Approaching (reach : Finset Peer) (peer : Peer) (state : State) : Prop :=
  peer ∈ state.spawned ∨ Ahead reach peer state

/-- A recorded peer is spawned, or still to be looked at. -/
theorem History.recorded_cases {state : State} (history : History state) {peer : Peer}
    (recorded : state.Recorded peer) :
    peer ∈ state.spawned ∨
      peer ∈ state.coordinator.remaining ++ state.peerDiscovery.flatten := by
  rcases recorded with tested | ⟨peers, sent, member⟩
  · rcases (history.tested peer).mp tested with spawned | held
    · exact .inl spawned
    · right
      apply List.mem_append_left
      cases position : state.coordinator with
      | capacity holding rest =>
          rw [position] at held
          rw [List.mem_singleton.mp held]
          exact List.mem_cons_self
      | _ =>
          rw [position] at held
          cases held
  · rw [history.channel] at sent
    rcases List.mem_append.mp sent with taken | queued
    · have inTaken : peer ∈ state.taken.flatten := List.mem_flatten.mpr ⟨peers, taken, member⟩
      rw [history.position] at inTaken
      rcases List.mem_append.mp inTaken with examined | remaining
      · exact .inl ((history.mem_spawned peer).mpr examined)
      · exact .inr (List.mem_append_left _ remaining)
    · exact .inr (List.mem_append_right _ (List.mem_flatten.mpr ⟨peers, queued, member⟩))

theorem approaching_of_recorded {state : State} (history : History state) {peer : Peer}
    (recorded : state.Recorded peer) :
    Approaching (state.coordinator.remaining ++ state.peerDiscovery.flatten).toFinset peer
      state :=
  (history.recorded_cases recorded).imp id fun member => ⟨state.peerDiscovery, [],
    (List.append_nil _).symm, fun _ here => List.mem_toFinset.mpr here, member⟩

theorem approaching_coordinatorStep {config : SessionConfig} {reach : Finset Peer} {peer : Peer}
    {state next : State} (rule : CoordinatorStep config state next) (history : History state)
    (ahead : Ahead reach peer state) : Approaching reach peer next := by
  obtain ⟨front, back, queue, inside, member⟩ := ahead
  cases rule with
  | take peers rest position queued =>
      rw [position] at inside member
      cases front with
      | nil => cases member
      | cons first others =>
          rw [queue, List.cons_append] at queued
          cases queued
          exact .inr ⟨others, back, rfl, inside, member⟩
  | duplicate other rest position known =>
      rw [position] at inside member
      rcases List.mem_cons.mp member with rfl | later
      · left
        rw [history.tested peer, position] at known
        exact known.resolve_right List.not_mem_nil
      · exact .inr ⟨front, back, queue,
          fun entry here => inside entry (List.mem_cons_of_mem _ here), later⟩
  | insertPeer other rest position fresh =>
      rw [position] at inside member
      exact .inr ⟨front, back, queue, inside, member⟩
  | reap other rest result done position atCapacity queued =>
      exact .inr ⟨front, back, queue, inside, member⟩
  | spawn other rest position below =>
      rw [position] at inside member
      rcases List.mem_cons.mp member with rfl | later
      · left
        rw [State.spawned, List.map_append]
        exact List.mem_append_right _ List.mem_cons_self
      · exact .inr ⟨front, back, queue,
          fun entry here => inside entry (List.mem_cons_of_mem _ here), later⟩
  | hangUp position | proceed position | discoveryPending position | exhaust _ _ position
  | complete _ _ position | donePending position | batchEnd position =>
      rw [position] at inside member
      exact .inr ⟨front, back, queue, inside, member⟩

/-- A spawned task is never forgotten. -/
theorem spawned_transition {session : Session} {state next : State} {action : Action}
    (transition : Transition session state action next) {peer : Peer}
    (spawned : peer ∈ state.spawned) : peer ∈ next.spawned := by
  cases transition with
  | coordinator rule =>
      cases rule with
      | spawn other rest position below =>
          rw [State.spawned, List.map_append]
          exact List.mem_append_left _ spawned
      | _ => exact spawned
  | task found rule =>
      rw [emit_spawned, spawned_setTask found]
      exact spawned
  | receive isOpen queued => exact spawned
  | hangUp isOpen => exact spawned

theorem approaching_transition {session : Session} {reach : Finset Peer} {peer : Peer}
    {state next : State} {action : Action} (transition : Transition session state action next)
    (history : History state) (approaching : Approaching reach peer state) :
    Approaching reach peer next := by
  rcases approaching with spawned | ahead
  · exact .inl (spawned_transition transition spawned)
  · cases transition with
    | coordinator rule => exact approaching_coordinatorStep rule history ahead
    | @task index task phase effect found rule =>
        obtain ⟨front, back, queue, inside⟩ := ahead
        refine .inr ⟨front, back ++ effect.batches, ?_, ?_⟩
        · rw [emit_peerDiscovery, ← List.append_assoc, ← queue]
          rfl
        · rw [emit_coordinator]
          exact inside
    | receive isOpen queued => exact .inr ahead
    | hangUp isOpen => exact .inr ahead

theorem spawned_kept {session : Session} {Allowed : State → Action → Prop} {start final : State}
    {actions : List Action} (run : (machine session).Run Allowed start actions final)
    {peer : Peer} (spawned : peer ∈ start.spawned) : peer ∈ final.spawned :=
  run_invariant (fun state => peer ∈ state.spawned)
    (fun _ transition member => spawned_transition transition member) run spawned

/-! ## Bringing a peer to its task -/

/-- An orderly step in which the coordinator does nothing but leave the second
poll. -/
def Settles (state : State) (action : Action) : Prop :=
  OrderlyStep state action ∧ (action = .coordinator → state.coordinator = .pollDone)

theorem Settles.remaining {session : Session} {reach : Finset Peer} {state next : State}
    {action : Action} (settles : Settles state action)
    (transition : Transition session state action next)
    (inside : ∀ peer ∈ state.coordinator.remaining, peer ∈ reach) :
    ∀ peer ∈ next.coordinator.remaining, peer ∈ reach := by
  cases transition with
  | coordinator rule =>
      have polled := settles.2 rfl
      cases rule with
      | exhaust | complete | donePending => exact fun peer none => absurd none List.not_mem_nil
      | _ => simp_all
  | task found rule =>
      rw [emit_coordinator]
      exact inside
  | receive isOpen queued => exact inside
  | hangUp isOpen => exact inside

section Schedules

variable {session : Session} {seed : Peer} {before : List Action} {state : State}
  (run : (machine session).Run OrderlyStep (coordinate session.config seed) before state)
include run

/-- Before the exit an orderly step other than an idle poll is enabled. -/
theorem orderly_moves (capacity : 1 ≤ session.config.maxConcurrentTasks)
    (live : state.coordinator.isExited = false) :
    ∃ action next, OrderlyStep state action ∧ ¬ IdlePoll state action ∧
      (machine session).step state action = some next := by
  have kept := keepsReceiver_of_orderly run
  obtain ⟨action, next, keeps, counted, stepped⟩ :=
    (occupied_run capacity kept).moves (accounting_run run) capacity live
  by_cases late : LateDelivery state action
  · obtain ⟨orderly, counted, after, polled⟩ := late.gives_way session
    exact ⟨.coordinator, after, orderly, counted, polled⟩
  · exact ⟨action, next, ⟨keeps, late⟩, counted, stepped⟩

/-- A gossiped peer that was recorded can be brought to its task. -/
theorem exists_spawning_recorded (capacity : 1 ≤ session.config.maxConcurrentTasks) {peer : Peer}
    (gossip : Gossip session seed peer) (recorded : state.Recorded peer) :
    ∃ more final, (machine session).Run OrderlyStep state more final ∧ peer ∈ final.spawned := by
  let reach := (state.coordinator.remaining ++ state.peerDiscovery.flatten).toFinset
  have history := history_run run
  obtain ⟨more, final, later, -, stuck⟩ := exists_rest session reach
    (fun state action => OrderlyStep state action ∧ peer ∉ state.spawned)
    (fun state => History state ∧ Approaching reach peer state)
    (fun _ _ allowed => allowed.1.1)
    (fun _ transition holds => ⟨history_transition transition holds.1,
      approaching_transition transition holds.1 holds.2⟩)
    (fun allowed holds entry member => by
      obtain ⟨front, -, -, inside, -⟩ := holds.2.resolve_left allowed.2
      exact inside entry (List.mem_append_left _ member))
    ⟨history, approaching_of_recorded history recorded⟩
  have orderly : (machine session).Run OrderlyStep state more final :=
    later.mono fun _ _ allowed => allowed.1
  refine ⟨more, final, orderly, ?_⟩
  by_contra unspawned
  have whole := run.append orderly
  cases live : final.coordinator.isExited with
  | false =>
      obtain ⟨action, next, step, counted, stepped⟩ := orderly_moves whole capacity live
      exact counted (stuck action next ⟨step, unspawned⟩ stepped)
  | true =>
      have exited := (occupied_run capacity (keepsReceiver_of_orderly whole)).exit live
      exact unspawned (((crawlResult_of_orderly whole exited).spawned peer).mpr gossip)

/-- The running tasks can be brought to their end. -/
theorem exists_settling :
    ∃ more final, (machine session).Run OrderlyStep state more final ∧ final.runningTasks = 0 := by
  obtain ⟨more, final, later, -, stuck⟩ := exists_rest session state.coordinator.remaining.toFinset
    Settles (fun here => ∀ peer ∈ here.coordinator.remaining,
      peer ∈ state.coordinator.remaining.toFinset)
    (fun _ _ settles => settles.1.1)
    (fun settles transition inside => settles.remaining transition inside)
    (fun _ inside => inside) (fun peer member => List.mem_toFinset.mpr member)
  have orderly : (machine session).Run OrderlyStep state more final :=
    later.mono fun _ _ settles => settles.1
  refine ⟨more, final, orderly, ?_⟩
  by_contra busy
  have kept := keepsReceiver_of_orderly (run.append orderly)
  have forwarding := forwarding_run kept
  have live : final.coordinator.isExited = false := by
    by_contra exited
    exact busy (forwarding.graceful.settled (by simpa using exited))
  obtain ⟨action, next, working, keeps, stepped⟩ : ∃ action next,
      action ≠ .coordinator ∧ action ≠ .hangUp ∧
        (machine session).step final action = some next := by
    rcases running_task_moves forwarding.accounting forwarding.isOpen live
      (Nat.pos_of_ne_zero busy) with ⟨index, next, stepped⟩ | ⟨next, stepped⟩
    · exact ⟨.task index, next, by simp, by simp, stepped⟩
    · exact ⟨.receive, next, by simp, by simp, stepped⟩
  by_cases late : LateDelivery final action
  · obtain ⟨first, counted, after, polled⟩ := late.gives_way session
    exact counted (stuck .coordinator after ⟨first, fun _ => late.1⟩ polled)
  · have idle := stuck action next ⟨⟨keeps, late⟩, fun same => absurd same working⟩ stepped
    exact working idle.1

end Schedules

/-! ## Every gossiped peer can get a task -/

/-- From every point of a crawl without late deliveries every peer that gossip can
name can be brought to its task. -/
theorem exists_spawning {session : Session} {seed : Peer}
    (capacity : 1 ≤ session.config.maxConcurrentTasks) {peer : Peer}
    (gossip : Gossip session seed peer) {before : List Action} {state : State}
    (run : (machine session).Run OrderlyStep (coordinate session.config seed) before state) :
    ∃ more final, (machine session).Run OrderlyStep state more final ∧ peer ∈ final.spawned := by
  induction gossip generalizing before state with
  | start =>
      have kept := keepsReceiver_of_orderly run
      apply exists_spawning_recorded run capacity .start
      rcases (forwarding_run kept).seeded with panicked | seeded
      · cases (occupied_run capacity kept).exhausted _ panicked
      · exact .inr ⟨[seed], seeded, List.mem_cons_self⟩
  | @heard source other connection discovered known connected answer member inductionHypothesis =>
      obtain ⟨first, middle, spawning, spawned⟩ := inductionHypothesis run
      obtain ⟨second, settled, settling, quiet⟩ := exists_settling (run.append spawning)
      have reached := (run.append spawning).append settling
      have recorded : settled.Recorded other := by
        obtain ⟨task, inTasks, same⟩ := List.mem_map.mp (spawned_kept settling spawned)
        have forwards := (forwarding_run (keepsReceiver_of_orderly reached)).tasks task inTasks
        apply forwards.recorded (tasksSettled_of_quiet quiet task inTasks)
        rw [same]
        exact mem_answers.mpr ⟨connection, discovered, connected, answer, member⟩
      obtain ⟨third, final, later, here⟩ := exists_spawning_recorded reached capacity
        (.heard known connected answer member) recorded
      exact ⟨first ++ second ++ third, final, (spawning.append settling).append later, here⟩

/-- The standard connector's crawls process each endpoint at most once, and report
it at most once, if gossip is consistent; and with at least one concurrent task
only if it is, even when no result is delivered late. -/
theorem endpoint_processed_once_iff (session : Session) (connector : PeerConnector)
    (socketAddr : Address → Option SocketAddr)
    (network : (peerTimeout : Nat) → Peer → Behaviour)
    (standard : session.connector = connector.connect socketAddr network) (seed : Peer) :
    (ConsistentGossip session seed → ∀ actions state,
      (machine session).Run Machine.Always (coordinate session.config seed) actions state →
        (state.spawned.map Peer.endpoint).Nodup ∧
        (state.log.map fun entry => entry.2.peer.endpoint).Nodup ∧
        ∀ peer other, .listening peer ∈ state.log.map Prod.snd →
          .nonListening other ∈ state.log.map Prod.snd → peer.endpoint ≠ other.endpoint) ∧
      (1 ≤ session.config.maxConcurrentTasks →
        (∀ actions state,
          (machine session).Run OrderlyStep (coordinate session.config seed) actions state →
            (state.spawned.map Peer.endpoint).Nodup) →
        ConsistentGossip session seed) := by
  constructor
  · intro consistent actions state run
    exact endpoint_processed_once session connector socketAddr network standard seed consistent run
  · intro capacity once peer other gossip otherGossip same
    obtain ⟨first, middle, spawning, spawned⟩ :=
      exists_spawning capacity gossip (.nil (coordinate session.config seed))
    obtain ⟨second, final, later, otherSpawned⟩ := exists_spawning capacity otherGossip spawning
    have distinct := once _ _ (spawning.append later)
    exact List.inj_on_of_nodup_map distinct (spawned_kept later spawned) otherSpawned same

theorem not_consistentGossip_echo : ¬ ConsistentGossip echoSession echoSeed := by
  intro consistent
  have second : Gossip echoSession echoSeed (.withServices (.ipv4 2) 8333 ServiceFlags.NETWORK) :=
    .heard .start rfl rfl List.mem_cons_self
  have echo : Gossip echoSession echoSeed (.withServices (.ipv4 1) 8333 ServiceFlags.NETWORK) :=
    .heard second rfl rfl List.mem_cons_self
  cases consistent _ _ .start echo rfl

/-- A crawl of `leafSession` processes its two endpoints once, and some crawl of
`echoSession` processes an endpoint twice. -/
theorem endpoint_processed_once_iff_networks :
    (∃ state, (machine leafSession).Run Machine.Always (coordinate leafSession.config echoSeed)
        (List.replicate 4 .coordinator ++ List.replicate 6 (.task 0) ++
          List.replicate 6 .coordinator) state ∧
      state.spawned = [echoSeed, leafPeer] ∧ (state.spawned.map Peer.endpoint).Nodup) ∧
      ∃ actions state, (machine echoSession).Run OrderlyStep
          (coordinate echoSession.config echoSeed) actions state ∧
        ¬ (state.spawned.map Peer.endpoint).Nodup := by
  constructor
  · obtain ⟨state, run, passed⟩ := Machine.exists_run_of_execute (fun _ _ => true)
      (fun state : State => decide (state.spawned = [echoSeed, leafPeer])) (fun _ _ _ => trivial)
      (show ((machine leafSession).execute (fun _ _ => true)
        (coordinate leafSession.config echoSeed)
        (List.replicate 4 .coordinator ++ List.replicate 6 (.task 0) ++
          List.replicate 6 .coordinator)).any _ = true by decide)
    exact ⟨state, run, of_decide_eq_true passed, ((endpoint_processed_once_iff leafSession
      ⟨.nonListening .unknown .v2Preferred {} none⟩ (fun _ => none) leafNetwork rfl echoSeed).1
      consistentGossip_leaf _ state run).1⟩
  · by_contra never
    push Not at never
    exact not_consistentGossip_echo ((endpoint_processed_once_iff echoSession
      ⟨.nonListening .unknown .v2Preferred {} none⟩ (fun _ => none) echoNetwork rfl echoSeed).2
      (by decide) never)

/-- The crawl of `echoSession` processes the seed's endpoint twice and reports
it both as listening and as not listening. -/
theorem echo_reports_seed_twice :
    ∃ state, (machine echoSession).Run Machine.Always (coordinate echoSession.config echoSeed)
        echoSchedule state ∧
      ¬ (state.spawned.map Peer.endpoint).Nodup ∧
      ∃ peer other, .listening peer ∈ state.log.map Prod.snd ∧
        .nonListening other ∈ state.log.map Prod.snd ∧ peer.endpoint = other.endpoint := by
  obtain ⟨state, run, passed⟩ := Machine.exists_run_of_execute (fun _ _ => true)
    (fun state => ¬ (state.spawned.map Peer.endpoint).Nodup ∧
      .listening ⟨.ipv4 1, 8333, .known ServiceFlags.NETWORK, .known 70001⟩ ∈
        state.log.map Prod.snd ∧
      .nonListening (.withServices (.ipv4 1) 8333 ServiceFlags.NETWORK) ∈
        state.log.map Prod.snd) (fun _ _ _ => trivial)
    (show ((machine echoSession).execute (fun _ _ => true)
      (coordinate echoSession.config echoSeed) echoSchedule).any _ = true by decide)
  simp only [decide_eq_true_eq] at passed
  exact ⟨state, run, passed.1, _, _, passed.2.1, passed.2.2, rfl⟩

end BitcoinPeers.Crawler

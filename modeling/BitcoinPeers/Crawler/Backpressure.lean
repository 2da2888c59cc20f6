import BitcoinPeers.Crawler.Closure
import BitcoinPeers.Crawler.Delivery
import BitcoinPeers.Crawler.Termination

/-!
Contract: how far a crawl runs ahead of its caller.

Owns:
- that every task that has not reported still runs, and every other has one
  message in the log;
- that a crawl stands still before its end only with a full crawl channel, and
  that every message the caller then takes sets a task free;
- that a crawl of more peers than the channel holds does stand still when its
  caller takes nothing.

Assumed, as by `Session`: each `connect` and `get_peers` call returns.

Does not own: callers that drop the receiver, or the order in which tasks that
wait for the channel are served.
-/

namespace BitcoinPeers.Crawler

open BitcoinPeers.Foundation

/-- Tasks whose message has not been sent. -/
def State.unreported (state : State) : Nat :=
  state.tasks.countP fun task => !task.phase.reported

theorem unreported_setTask {state : State} {index : Nat} {task : Task}
    (found : state.tasks[index]? = some task) (phase : TaskPhase) :
    (state.setTask index ⟨task.peer, phase⟩).unreported +
        (if !task.phase.reported then 1 else 0) =
      state.unreported + (if !phase.reported then 1 else 0) := by
  obtain ⟨inBounds, here⟩ := List.getElem?_eq_some_iff.mp found
  have occurs : (if !task.phase.reported then 1 else 0) ≤
      state.tasks.countP fun task => !task.phase.reported := by
    rw [← here]
    exact List.boole_getElem_le_countP (p := fun task => !task.phase.reported) inBounds
  simp only [State.unreported, State.setTask, List.countP_set inBounds, here]
  omega

/-- A task step with an open channel passes the report exactly when it sends the
message. -/
theorem TaskStep.reports_once {session : Session} {state : State} {task : Task}
    {phase : TaskPhase} {effect : Effect} (rule : TaskStep session state task phase effect)
    (isOpen : state.crawlOpen = true) :
    effect.messages.length + (if !phase.reported then 1 else 0) =
      if !task.phase.reported then 1 else 0 := by
  cases rule with
  | crawlClosed position closed =>
      rw [isOpen] at closed
      cases closed
  | _ => simp [Effect.messages, TaskPhase.reported, *]

/-- Every spawned task has its message in the log or has yet to send it. -/
def Paced (state : State) : Prop :=
  state.crawlOpen = true ∧ state.log.length + state.unreported = state.tasks.length

theorem paced_coordinate (config : SessionConfig) (seed : Peer) :
    Paced (coordinate config seed) := by
  unfold coordinate
  split
  · exact ⟨rfl, rfl⟩
  · exact ⟨rfl, rfl⟩

theorem paced_transition {session : Session} {state next : State} {action : Action}
    (kept : KeepsReceiver state action) (transition : Transition session state action next)
    (paced : Paced state) : Paced next := by
  obtain ⟨isOpen, balance⟩ := paced
  cases transition with
  | coordinator rule =>
      cases rule with
      | spawn peer rest position below =>
          refine ⟨isOpen, ?_⟩
          have one : [(⟨peer, .connecting⟩ : Task)].countP (fun task => !task.phase.reported) =
              1 := rfl
          unfold State.unreported at balance ⊢
          rw [List.countP_append, one, List.length_append, List.length_singleton]
          dsimp only
          omega
      | _ => exact ⟨isOpen, balance⟩
  | @task index task phase effect found rule =>
      have moved := unreported_setTask found phase
      have once := rule.reports_once isOpen
      refine ⟨by rw [emit_crawlOpen]; exact isOpen, ?_⟩
      have same : ((state.setTask index ⟨task.peer, phase⟩).emit index effect).unreported =
          (state.setTask index ⟨task.peer, phase⟩).unreported := by
        rw [State.unreported, emit_tasks, State.unreported]
      have length : (state.setTask index ⟨task.peer, phase⟩).tasks.length =
          state.tasks.length := List.length_set
      rw [same, emit_tasks, length, emit_log, List.length_append, List.length_map]
      change state.log.length + _ + _ = _
      omega
  | receive isOpen queued => exact ⟨isOpen, balance⟩
  | hangUp isOpen => exact absurd rfl kept

theorem paced_run {session : Session} {seed : Peer} {actions : List Action} {state : State}
    (run : (machine session).Run KeepsReceiver (coordinate session.config seed) actions state) :
    Paced state :=
  run_invariant Paced (fun kept transition => paced_transition kept transition) run
    (paced_coordinate session.config seed)

/-- A task that has not reported still runs. -/
theorem unreported_le_running (state : State) : state.unreported ≤ state.runningTasks := by
  apply List.countP_mono_left
  intro task _ unreported
  cases phase : task.phase <;> simp_all [TaskPhase.reported, TaskPhase.running]

/-! ## Standing still -/

/-- The task is at the send of its message. -/
def TaskPhase.Reports (phase : TaskPhase) : Prop :=
  phase = .sendingNonListening ∨ ∃ connection, phase = .sendingListening connection

/-- A task that waits, with room for its result, waits to send its message. -/
theorem waits_of_advance_none {session : Session} {state : State} {task : Task}
    (runs : task.phase.running = true) (doneReady : state.donePort session.config = .ready)
    (stuck : task.advance session state = none) :
    state.crawlPort = .full ∧ task.phase.Reports := by
  unfold Task.advance at stuck
  cases position : task.phase with
  | connecting =>
      simp only [position] at stuck
      split at stuck <;> cases stuck
  | sendingNonListening =>
      simp only [position] at stuck
      cases port : state.crawlPort with
      | full => exact ⟨rfl, .inl rfl⟩
      | closed => simp [port] at stuck
      | ready => simp [port] at stuck
  | sendingListening connection =>
      simp only [position] at stuck
      cases port : state.crawlPort with
      | full => exact ⟨rfl, .inr ⟨connection, rfl⟩⟩
      | closed => simp [port] at stuck
      | ready => simp [port] at stuck
  | gettingPeers connection =>
      simp only [position] at stuck
      split at stuck <;> cases stuck
  | filtering discoveredPeers =>
      simp only [position] at stuck
      split at stuck <;> cases stuck
  | sendingPeers filteredPeers =>
      simp only [position] at stuck
      split at stuck <;> cases stuck
  | finishing result => simp [position, doneReady] at stuck
  | finished result =>
      rw [position] at runs
      cases runs
  | panicked =>
      rw [position] at runs
      cases runs

/-- Such a task sends its message when the channel has room. -/
theorem TaskPhase.Reports.advance {state : State} {task : Task}
    (reports : task.phase.Reports) (room : state.crawlPort = .ready) (session : Session) :
    ∃ phase message, task.advance session state = some (phase, .report message) := by
  unfold Task.advance
  rcases reports with position | ⟨connection, position⟩
  · exact ⟨.finishing .connectionFailed, .nonListening task.peer, by simp only [position, room]⟩
  · exact ⟨.gettingPeers connection, .listening connection.peer, by simp only [position, room]⟩

theorem stepTask_of_advance {session : Session} {state : State} {index : Nat} {task : Task}
    (found : state.tasks[index]? = some task) {outcome : TaskPhase × Effect}
    (advanced : task.advance session state = some outcome) :
    (machine session).step state (.task index) =
      some ((state.setTask index ⟨task.peer, outcome.1⟩).emit index outcome.2) := by
  simp [machine, step, stepTask, found, advanced]

/-- No step of the session is left but idle polls. -/
def StandsStill (session : Session) (state : State) : Prop :=
  ∀ action next, action ≠ .receive → action ≠ .hangUp →
    (machine session).step state action = some next → IdlePoll state action

theorem advance_of_standsStill {session : Session} {state : State}
    (still : StandsStill session state) {index : Nat} {task : Task}
    (found : state.tasks[index]? = some task) : task.advance session state = none := by
  cases advanced : task.advance session state with
  | none => rfl
  | some outcome =>
      have idle := still (.task index) _ (by simp) (by simp) (stepTask_of_advance found advanced)
      cases idle.1

/-- Before the exit a session that stands still has a task that waits to send its
message, and waits with every running task for room in the crawl channel. -/
theorem full_of_standsStill {session : Session} {seed : Peer} {state : State}
    (capacity : 1 ≤ session.config.maxConcurrentTasks)
    (accounting : Accounting session.config state) (occupied : Occupied seed state)
    (live : state.coordinator.isExited = false) (still : StandsStill session state) :
    0 < state.runningTasks ∧ state.crawlPort = .full ∧
      ∀ task ∈ state.tasks, task.phase.running = true → task.phase.Reports := by
  have waits : ∀ task ∈ state.tasks, task.phase.running = true →
      state.crawlPort = .full ∧ task.phase.Reports := by
    intro task member runs
    obtain ⟨index, found⟩ := List.mem_iff_getElem?.mp member
    have room := accounting.taskDone_room live member runs
    exact waits_of_advance_none runs (by simp [State.donePort, live, room])
      (advance_of_standsStill still found)
  have running : 0 < state.runningTasks := by
    rcases coordinator_moves capacity accounting occupied live with ⟨next, stepped, busy⟩ | running
    · exact absurd (still .coordinator next (by simp) (by simp) stepped) busy
    · exact running
  obtain ⟨task, member, runs⟩ := List.countP_pos_iff.mp running
  exact ⟨running, (waits task member runs).1, fun other here runs => (waits other here runs).2⟩

/-! ## The caller -/

/-- What holds in every run whose receiver is kept. -/
structure Keeping (session : Session) (seed : Peer) (state : State) : Prop where
  paced : Paced state
  accounting : Accounting session.config state
  occupied : Occupied seed state

theorem keeping_run {session : Session} {seed : Peer}
    (capacity : 1 ≤ session.config.maxConcurrentTasks) {actions : List Action} {state : State}
    (run : (machine session).Run KeepsReceiver (coordinate session.config seed) actions state) :
    Keeping session seed state :=
  ⟨paced_run run, accounting_run run, occupied_run capacity run⟩

theorem Keeping.running_le {session : Session} {seed : Peer} {state : State}
    (keeping : Keeping session seed state) :
    state.runningTasks ≤ session.config.maxConcurrentTasks := by
  have bound := keeping.accounting.bound
  cases live : state.coordinator.isExited with
  | false =>
      have balance := keeping.accounting.counter live
      omega
  | true =>
      have none := (keeping.accounting.drained (keeping.occupied.exit live)).1
      omega

theorem crawlPort_full {state : State} (full : state.crawlPort = .full) :
    CRAWL_CHANNEL_CAPACITY ≤ state.crawl.length := by
  unfold State.crawlPort at full
  split at full
  next =>
    split at full
    next => cases full
    next room => exact Nat.le_of_not_lt room
  next => cases full

/-- A crawl whose caller keeps the receiver is never further ahead of it than the
channel and the running tasks: it has spawned at most as many peers as messages
were taken, 1000 more, and the maximum number of tasks. Before its end it stands
still only with exactly 1000 messages queued and every running task waiting to
send its own, and each message the caller then takes lets one of them send
next. -/
theorem crawl_backpressure (session : Session) (seed : Peer)
    (capacity : 1 ≤ session.config.maxConcurrentTasks) {actions : List Action} {state : State}
    (run : (machine session).Run KeepsReceiver (coordinate session.config seed) actions state) :
    state.spawned.length ≤
        (receipts session (coordinate session.config seed) actions).length +
          CRAWL_CHANNEL_CAPACITY + session.config.maxConcurrentTasks ∧
      (state.coordinator.isExited = false → StandsStill session state →
        state.crawl.length = CRAWL_CHANNEL_CAPACITY ∧ 0 < state.runningTasks ∧
          (∀ task ∈ state.tasks, task.phase.running = true → task.phase.Reports) ∧
          ∃ taken index task next, (machine session).step state .receive = some taken ∧
            state.tasks[index]? = some task ∧ task.phase.running = true ∧
            (machine session).step taken (.task index) = some next ∧
            next.log.length = state.log.length + 1) := by
  have keeping := keeping_run capacity run
  have delivered := delivered_run run
  constructor
  · have balance := keeping.paced.2
    have queued := congrArg List.length (delivered.queued keeping.paced.1)
    rw [List.length_map, List.length_append] at queued
    have room := delivered.capacity
    have unreported := unreported_le_running state
    have running := keeping.running_le
    rw [State.spawned, List.length_map]
    omega
  · intro live still
    obtain ⟨running, full, waits⟩ :=
      full_of_standsStill capacity keeping.accounting keeping.occupied live still
    have most := crawlPort_full full
    have least := delivered.capacity
    have exact : state.crawl.length = CRAWL_CHANNEL_CAPACITY := Nat.le_antisymm least most
    refine ⟨exact, running, waits, ?_⟩
    obtain ⟨task, member, runs⟩ := List.countP_pos_iff.mp running
    obtain ⟨index, found⟩ := List.mem_iff_getElem?.mp member
    cases queued : state.crawl with
    | nil =>
        rw [queued] at exact
        cases exact
    | cons message rest =>
        have room : State.crawlPort { state with crawl := rest } = .ready := by
          rw [queued, List.length_cons] at exact
          have space : rest.length < CRAWL_CHANNEL_CAPACITY := by omega
          simp only [State.crawlPort, keeping.paced.1, space, if_true]
        have there : ({ state with crawl := rest } : State).tasks[index]? = some task := found
        obtain ⟨phase, sent, advanced⟩ := (waits task member runs).advance room session
        refine ⟨{ state with crawl := rest }, index, task, _,
          by simp [machine, step, keeping.paced.1, queued], found, runs,
          stepTask_of_advance there advanced, ?_⟩
        rw [emit_log, List.length_append]
        rfl

/-! ## A caller that takes nothing -/

/-- An orderly step that takes no message from the channel. -/
def Unread (state : State) (action : Action) : Prop :=
  OrderlyStep state action ∧ action ≠ .receive

theorem receipts_unread {session : Session} {start state : State} {actions : List Action}
    (run : (machine session).Run Unread start actions state) :
    receipts session start actions = [] := by
  have seen := run.traced receipt (fun seen _ => seen = []) (fun {seen state next action}
    unread _ none => ?_) rfl
  · exact seen
  · rw [none]
    cases action with
    | receive => exact absurd rfl unread.2
    | _ => rfl

/-- Where idle polls alone are orderly nothing else can happen. -/
theorem standsStill_of_unread {session : Session} {state : State}
    (stuck : ∀ action next, Unread state action →
      (machine session).step state action = some next → IdlePoll state action) :
    StandsStill session state := by
  intro action next untaken kept stepped
  by_cases late : LateDelivery state action
  · obtain ⟨orderly, counted, after, polled⟩ := late.gives_way session
    exact absurd (stuck .coordinator after ⟨orderly, nofun⟩ polled) counted
  · exact stuck action next ⟨⟨kept, late⟩, untaken⟩ stepped

/-- At the end of a crawl without a late delivery every peer of the closure has
been reported. -/
theorem closure_logged {session : Session} {seed : Peer} {actions : List Action} {state : State}
    (run : (machine session).Run OrderlyStep (coordinate session.config seed) actions state)
    (exited : state.coordinator = .exited .exhausted) {crowd : Finset Peer}
    (gossiped : ∀ peer ∈ crowd, Gossip session seed peer) : crowd.card ≤ state.log.length := by
  have result := crawlResult_of_orderly run exited
  have spawned : crowd ⊆ state.spawned.toFinset := fun peer member =>
    List.mem_toFinset.mpr ((result.spawned peer).mpr (gossiped peer member))
  have reported := result.reported.length_eq
  rw [List.length_map, List.length_map] at reported
  calc crowd.card ≤ state.spawned.toFinset.card := Finset.card_le_card spawned
    _ ≤ state.spawned.length := List.toFinset_card_le _
    _ = state.log.length := reported.symm

/-- A crawl of more peers than the channel holds comes to stand still when its
caller takes nothing. -/
theorem exists_standsStill {session : Session} {reach : Finset Peer} {seed : Peer}
    (known : seed ∈ reach) (inherited : Inherited session (· ∈ reach))
    (capacity : 1 ≤ session.config.maxConcurrentTasks) {crowd : Finset Peer}
    (gossiped : ∀ peer ∈ crowd, Gossip session seed peer)
    (many : CRAWL_CHANNEL_CAPACITY < crowd.card) :
    ∃ actions state,
      (machine session).Run KeepsReceiver (coordinate session.config seed) actions state ∧
      receipts session (coordinate session.config seed) actions = [] ∧
      state.coordinator.isExited = false ∧ StandsStill session state := by
  obtain ⟨actions, state, run, progress, stuck⟩ := exists_rest session reach Unread
    (Progress session reach seed) (fun _ _ unread => unread.1.1)
    (fun unread transition => progress_transition inherited unread.1.1 transition)
    (fun _ progress _ member => progress.sourced.remaining progress.history member)
    (progress_coordinate known capacity)
  have orderly : (machine session).Run OrderlyStep (coordinate session.config seed) actions state :=
    run.mono fun _ _ unread => unread.1
  have kept := keepsReceiver_of_orderly orderly
  have untaken := receipts_unread run
  refine ⟨actions, state, kept, untaken, ?_, standsStill_of_unread stuck⟩
  by_contra exited
  have logged := closure_logged orderly (progress.occupied.exit (by simpa using exited)) gossiped
  have delivered := delivered_run kept
  have queued := congrArg List.length (delivered.queued progress.occupied.receiver)
  have room := delivered.capacity
  rw [untaken, List.nil_append, List.length_map] at queued
  omega

/-! ## A network of 1001 peers -/

def crowdPeer (place : Nat) : Peer := pairPeer (UInt32.ofNat place)

def crowd : List Peer := (List.range 1001).map crowdPeer

def crowdConnection : PeerConnection := ⟨crowdPeer 0, fun _ => .ok crowd⟩

/-- One task at a time; the first peer answers with the whole crowd, of which no
other peer answers. -/
def crowdSession : Session where
  config := { maxConcurrentTasks := 1, peerTimeout := 20000000000 }
  connector := fun _ peer =>
    if peer = crowdPeer 0 then .connected crowdConnection else .timedOut

theorem crowdPeer_injOn : Set.InjOn crowdPeer (Finset.range 1001) := by
  intro left leftMember right rightMember same
  have hosts : UInt32.ofNat left = UInt32.ofNat right :=
    AddrV2.ipv4.inj (congrArg Peer.address same)
  have leftBound : left < 2 ^ 32 := (Finset.mem_range.mp leftMember).trans (by decide)
  have rightBound : right < 2 ^ 32 := (Finset.mem_range.mp rightMember).trans (by decide)
  have places := congrArg UInt32.toNat hosts
  rw [UInt32.toNat_ofNat_of_lt' leftBound, UInt32.toNat_ofNat_of_lt' rightBound] at places
  exact places

theorem card_crowd : crowd.toFinset.card = 1001 := by
  have image : crowd.toFinset = (Finset.range 1001).image crowdPeer := by
    ext peer
    simp [crowd]
  rw [image, Finset.card_image_of_injOn crowdPeer_injOn, Finset.card_range]

theorem first_mem_crowd : crowdPeer 0 ∈ crowd.toFinset :=
  List.mem_toFinset.mpr (List.mem_map.mpr ⟨0, List.mem_range.mpr (by decide), rfl⟩)

theorem connector_crowd (peer : Peer) :
    crowdSession.connector crowdSession.config.peerTimeout peer =
      if peer = crowdPeer 0 then .connected crowdConnection else .timedOut := rfl

theorem gossip_crowd {peer : Peer} (member : peer ∈ crowd.toFinset) :
    Gossip crowdSession (crowdPeer 0) peer :=
  .heard .start (by rw [connector_crowd, if_pos rfl]) rfl (List.mem_toFinset.mp member)

theorem inherited_crowd : Inherited crowdSession (· ∈ crowd.toFinset) := by
  intro peer _ connection discovered answer got other member
  rw [connector_crowd] at answer
  split at answer
  next =>
    cases answer
    have heard : crowd = discovered := Except.ok.inj got
    rw [← heard] at member
    exact List.mem_toFinset.mpr member
  next => cases answer

/-- A caller of `crowdSession` that takes nothing brings the crawl to stand still
before its end. -/
theorem crawl_backpressure_crowd :
    ∃ actions state, (machine crowdSession).Run KeepsReceiver
        (coordinate crowdSession.config (crowdPeer 0)) actions state ∧
      state.coordinator.isExited = false ∧ StandsStill crowdSession state ∧
      state.spawned.length ≤ 1001 ∧ state.crawl.length = CRAWL_CHANNEL_CAPACITY ∧
      ∃ taken index task next, (machine crowdSession).step state .receive = some taken ∧
        state.tasks[index]? = some task ∧ task.phase.Reports ∧
        (machine crowdSession).step taken (.task index) = some next ∧
        next.log.length = state.log.length + 1 := by
  obtain ⟨actions, state, run, untaken, live, still⟩ := exists_standsStill
    first_mem_crowd inherited_crowd (by decide) (fun _ => gossip_crowd)
    (by rw [card_crowd]; decide)
  obtain ⟨ahead, standing⟩ := crawl_backpressure crowdSession (crowdPeer 0) (by decide) run
  obtain ⟨full, -, waits, taken, index, task, next, took, found, runs, sent, longer⟩ :=
    standing live still
  rw [untaken] at ahead
  exact ⟨actions, state, run, live, still, ahead, full, taken, index, task, next, took, found,
    waits task (List.mem_of_getElem? found) runs, sent, longer⟩

end BitcoinPeers.Crawler

import BitcoinPeers.Crawler.Provenance

/-!
Contract: the causal order of a crawl.

Owns:
- what it means that a peer was heard of from a peer reported `Listening`, and
  the chains of such steps from the seed;
- the invariant that ties every peer in a task, in a sent batch or at the
  coordinator to such a chain, and every message to the messages before it;
- the order of the `Listening` report of a source, the insertion of the peers it
  named, and the reports about those.

Does not own: which messages a task sends; `Reporting` has them.
-/

namespace BitcoinPeers.Crawler

open BitcoinPeers.Foundation

/-- `other` is in the `get_peers` result of `source`, and the task spawned for
`source` has put its `Listening` message in the log. -/
def Heard (session : Session) (spawned : List Peer) (log : List (Nat × CrawlerMessage))
    (source other : Peer) : Prop :=
  ∃ index connection discovered,
    spawned[index]? = some source ∧
      session.connector session.config.peerTimeout source = .connected connection ∧
      (index, .listening connection.peer) ∈ log ∧
      connection.getPeers session.config.peerTimeout = .ok discovered ∧ other ∈ discovered

/-- A chain of heard peers from the seed. -/
inductive Reached (session : Session) (seed : Peer) (spawned : List Peer)
    (log : List (Nat × CrawlerMessage)) : Peer → Prop where
  | seed : Reached session seed spawned log seed
  | heard {source other : Peer} (reached : Reached session seed spawned log source)
      (heard : Heard session spawned log source other) :
      Reached session seed spawned log other

section Growth

variable {session : Session} {seed : Peer} {spawned longer : List Peer}
  {log later : List (Nat × CrawlerMessage)}

/-- What was heard stays heard when tasks and messages are added. -/
theorem Heard.mono (tasks : spawned <+: longer) (messages : log <+: later) {source other : Peer}
    (heard : Heard session spawned log source other) :
    Heard session longer later source other := by
  obtain ⟨index, connection, discovered, found, answer, listed, result, member⟩ := heard
  exact ⟨index, connection, discovered, getElem?_of_prefix tasks found, answer,
    messages.subset listed, result, member⟩

theorem Reached.mono (tasks : spawned <+: longer) (messages : log <+: later) {peer : Peer}
    (reached : Reached session seed spawned log peer) :
    Reached session seed longer later peer := by
  induction reached with
  | seed => exact .seed
  | heard _ heard inductionHypothesis =>
      exact .heard inductionHypothesis (heard.mono tasks messages)

/-- A reached peer is the seed or was heard of. -/
theorem Reached.source {peer : Peer} (reached : Reached session seed spawned log peer)
    (other : peer ≠ seed) : ∃ source, Heard session spawned log source peer := by
  cases reached with
  | seed => exact absurd rfl other
  | @heard source _ _ heard => exact ⟨source, heard⟩

end Growth

/-! ## What a task holds -/

/-- What task `index` for `peer` holds at a program point: its connection is the
connector's answer, and from `get_peers` on it has reported `Listening`. -/
def TaskPhase.Vouched (session : Session) (log : List (Nat × CrawlerMessage)) (index : Nat)
    (peer : Peer) : TaskPhase → Prop
  | .sendingListening connection =>
      session.connector session.config.peerTimeout peer = .connected connection
  | .gettingPeers connection =>
      session.connector session.config.peerTimeout peer = .connected connection ∧
        (index, .listening connection.peer) ∈ log
  | .filtering peers | .sendingPeers peers =>
      ∃ connection discovered,
        session.connector session.config.peerTimeout peer = .connected connection ∧
          (index, .listening connection.peer) ∈ log ∧
          connection.getPeers session.config.peerTimeout = .ok discovered ∧
          ∀ other ∈ peers, other ∈ discovered
  | _ => True

theorem TaskPhase.Vouched.mono {session : Session} {log later : List (Nat × CrawlerMessage)}
    {index : Nat} {peer : Peer} {phase : TaskPhase} (messages : log <+: later)
    (vouched : phase.Vouched session log index peer) :
    phase.Vouched session later index peer := by
  cases phase with
  | gettingPeers connection => exact ⟨vouched.1, messages.subset vouched.2⟩
  | filtering peers =>
      obtain ⟨connection, discovered, answer, listed, result, within⟩ := vouched
      exact ⟨connection, discovered, answer, messages.subset listed, result, within⟩
  | sendingPeers peers =>
      obtain ⟨connection, discovered, answer, listed, result, within⟩ := vouched
      exact ⟨connection, discovered, answer, messages.subset listed, result, within⟩
  | _ => exact vouched

/-- A task step keeps what it holds vouched for, and sends only peers it heard
of. -/
theorem TaskStep.vouched {session : Session} {state : State} {task : Task} {index : Nat}
    {phase : TaskPhase} {effect : Effect} (rule : TaskStep session state task phase effect)
    {log : List (Nat × CrawlerMessage)} {spawned : List Peer}
    (found : spawned[index]? = some task.peer)
    (vouched : task.phase.Vouched session log index task.peer) :
    phase.Vouched session (log ++ effect.messages.map (index, ·)) index task.peer ∧
      ∀ peers ∈ effect.batches, ∀ peer ∈ peers, Heard session spawned log task.peer peer := by
  cases rule with
  | connected connection position answer => exact ⟨answer, by simp [Effect.batches]⟩
  | reportListening connection position port =>
      rw [position] at vouched
      exact ⟨⟨vouched, by simp [Effect.messages]⟩, by simp [Effect.batches]⟩
  | gotPeers connection discovered position answer nonempty =>
      rw [position] at vouched
      refine ⟨⟨connection, discovered, vouched.1, ?_, answer, fun _ member => member⟩,
        by simp [Effect.batches]⟩
      exact List.mem_append_left _ vouched.2
  | filteredSome discovered position nonempty =>
      rw [position] at vouched
      obtain ⟨connection, all, answer, listed, result, within⟩ := vouched
      refine ⟨⟨connection, all, answer, List.mem_append_left _ listed, result,
        fun other member => ?_⟩, by simp [Effect.batches]⟩
      exact within other (List.mem_of_mem_filter member)
  | discover filtered position live =>
      rw [position] at vouched
      obtain ⟨connection, all, answer, listed, result, within⟩ := vouched
      refine ⟨trivial, fun peers sent peer member => ?_⟩
      rw [List.mem_singleton.mp sent] at member
      exact ⟨index, connection, all, found, answer, listed, result, within peer member⟩
  | _ => exact ⟨trivial, by simp [Effect.batches]⟩

/-! ## The causal invariant -/

structure Caused (session : Session) (seed : Peer) (state : State) : Prop where
  sent : ∀ peers ∈ state.sent, ∀ peer ∈ peers,
    Reached session seed state.spawned state.log peer
  tasks : ∀ (index : Nat) (task : Task), state.tasks[index]? = some task →
    Reached session seed state.spawned state.log task.peer ∧
      task.phase.Vouched session state.log index task.peer
  authors : ∀ entry ∈ state.log, entry.1 < state.tasks.length
  log : ∀ (position index : Nat) message peer, state.log[position]? = some (index, message) →
    state.spawned[index]? = some peer →
    Reached session seed state.spawned (state.log.take position) peer

theorem caused_coordinate (session : Session) (seed : Peer) :
    Caused session seed (coordinate session.config seed) := by
  have untouched : (coordinate session.config seed).tasks = [] ∧
      (coordinate session.config seed).log = [] := by
    unfold coordinate
    split <;> exact ⟨rfl, rfl⟩
  refine ⟨fun peers sent peer member => ?_, ?_, ?_, ?_⟩
  · have primed : peers = [seed] := by
      unfold coordinate at sent
      split at sent
      · cases sent
      · exact List.mem_singleton.mp sent
    rw [primed, List.mem_singleton] at member
    rw [member]
    exact .seed
  · rw [untouched.1]
    intro index task found
    simp at found
  · rw [untouched.2]
    intro entry member
    cases member
  · rw [untouched.2]
    intro position index message peer found
    simp at found

/-- The entries the coordinator has still to look at are reached. -/
theorem Caused.remaining {session : Session} {seed : Peer} {state : State}
    (caused : Caused session seed state) (history : History state) {peer : Peer}
    (member : peer ∈ state.coordinator.remaining) :
    Reached session seed state.spawned state.log peer := by
  obtain ⟨peers, sent, here⟩ := history.mem_sent member
  exact caused.sent peers sent peer here

/-- Spawning a task for a reached peer. -/
theorem Caused.spawn {session : Session} {seed : Peer} {state next : State}
    (caused : Caused session seed state) {peer : Peer}
    (reached : Reached session seed state.spawned state.log peer)
    (sent : next.sent = state.sent) (log : next.log = state.log)
    (tasks : next.tasks = state.tasks ++ [⟨peer, .connecting⟩]) :
    Caused session seed next := by
  have grown : state.spawned <+: next.spawned := by
    rw [State.spawned, State.spawned, tasks, List.map_append]
    exact List.prefix_append _ _
  refine ⟨?_, ?_, ?_, ?_⟩
  · rw [sent, log]
    intro peers member other inside
    exact (caused.sent peers member other inside).mono grown (List.prefix_refl _)
  · rw [tasks, log]
    intro index task found
    rw [List.getElem?_append] at found
    split at found
    next =>
      obtain ⟨known, vouched⟩ := caused.tasks index task found
      exact ⟨known.mono grown (List.prefix_refl _), vouched⟩
    next =>
      rw [List.mem_singleton.mp (List.mem_of_getElem? found)]
      exact ⟨reached.mono grown (List.prefix_refl _), trivial⟩
  · rw [log, tasks]
    intro entry member
    have bound := caused.authors entry member
    simp only [List.length_append, List.length_singleton]
    omega
  · rw [log]
    intro position index message other found author
    have inside := caused.authors _ (List.mem_of_getElem? found)
    rw [State.spawned, tasks, List.map_append, List.getElem?_append_left
      (by simpa using inside)] at author
    exact (caused.log position index message other found author).mono grown (List.prefix_refl _)

/-- New messages by the task of a reached peer follow what it was reached by. -/
theorem Caused.log_append {session : Session} {seed : Peer} {state : State}
    (caused : Caused session seed state) {index : Nat} {author : Peer}
    (listed : state.spawned[index]? = some author)
    (reached : Reached session seed state.spawned state.log author)
    (messages : List CrawlerMessage) (position other : Nat) (message : CrawlerMessage)
    (peer : Peer)
    (entry : (state.log ++ messages.map (index, ·))[position]? = some (other, message))
    (writes : state.spawned[other]? = some peer) :
    Reached session seed state.spawned
      ((state.log ++ messages.map (index, ·)).take position) peer := by
  rw [List.getElem?_append] at entry
  split at entry
  next before =>
    rw [List.take_append_of_le_length (Nat.le_of_lt before)]
    exact caused.log position other message peer entry writes
  next after =>
    obtain ⟨sent, -, same⟩ := List.mem_map.mp (List.mem_of_getElem? entry)
    cases same
    rw [listed] at writes
    cases writes
    refine reached.mono (List.prefix_refl _) ?_
    rw [List.take_append, List.take_of_length_le (by omega)]
    exact List.prefix_append _ _

/-- A task step keeps the invariant: what it puts in the log is by a task that
was reached before, and what it sends was heard of. -/
theorem caused_taskStep {session : Session} {seed : Peer} {state : State} {index : Nat}
    {task : Task} {phase : TaskPhase} {effect : Effect}
    (found : state.tasks[index]? = some task)
    (rule : TaskStep session state task phase effect) (caused : Caused session seed state) :
    Caused session seed ((state.setTask index ⟨task.peer, phase⟩).emit index effect) := by
  have spawned := spawned_setTask found phase
  have listed : state.spawned[index]? = some task.peer := by
    rw [State.spawned, List.getElem?_map, found]
    rfl
  obtain ⟨reached, vouched⟩ := caused.tasks index task found
  obtain ⟨vouches, hears⟩ := rule.vouched listed vouched
  obtain ⟨inBounds, -⟩ := List.getElem?_eq_some_iff.mp found
  have grown : state.log <+: state.log ++ effect.messages.map (index, ·) :=
    List.prefix_append _ _
  refine ⟨?_, ?_, ?_, ?_⟩
  · rw [emit_sent, emit_spawned, emit_log, spawned]
    intro peers sent peer member
    rcases List.mem_append.mp sent with old | new
    · exact (caused.sent peers old peer member).mono (List.prefix_refl _) grown
    · exact (Reached.heard reached (hears peers new peer member)).mono (List.prefix_refl _) grown
  · rw [emit_tasks, emit_spawned, emit_log, spawned]
    intro other held here
    change (state.tasks.set index ⟨task.peer, phase⟩)[other]? = some held at here
    rw [List.getElem?_set] at here
    split at here
    next same =>
      subst same
      cases here
      exact ⟨reached.mono (List.prefix_refl _) grown, vouches⟩
    next =>
      obtain ⟨known, holds⟩ := caused.tasks other held here
      exact ⟨known.mono (List.prefix_refl _) grown, holds.mono grown⟩
  · rw [emit_log, emit_tasks]
    intro entry member
    change entry.1 < (state.tasks.set index _).length
    rw [List.length_set]
    rcases List.mem_append.mp member with old | new
    · exact caused.authors entry old
    · obtain ⟨message, -, rfl⟩ := List.mem_map.mp new
      exact inBounds
  · rw [emit_log, emit_spawned, spawned]
    exact caused.log_append listed reached effect.messages

theorem caused_coordinatorStep {session : Session} {seed : Peer} {state next : State}
    (rule : CoordinatorStep session.config state next) (history : History state)
    (caused : Caused session seed state) : Caused session seed next := by
  cases rule with
  | spawn peer rest position below =>
      refine caused.spawn (caused.remaining history ?_) rfl rfl rfl
      rw [position]
      exact List.mem_cons_self
  | _ => exact ⟨caused.sent, caused.tasks, caused.authors, caused.log⟩

theorem caused_transition {session : Session} {seed : Peer} {state next : State}
    {action : Action} (transition : Transition session state action next)
    (history : History state) (caused : Caused session seed state) :
    Caused session seed next := by
  cases transition with
  | coordinator rule => exact caused_coordinatorStep rule history caused
  | task found rule => exact caused_taskStep found rule caused
  | receive isOpen queued => exact ⟨caused.sent, caused.tasks, caused.authors, caused.log⟩
  | hangUp isOpen => exact ⟨caused.sent, caused.tasks, caused.authors, caused.log⟩

theorem caused_run {session : Session} {Allowed : State → Action → Prop} {seed : Peer}
    {actions : List Action} {state : State}
    (run : (machine session).Run Allowed (coordinate session.config seed) actions state) :
    Caused session seed state :=
  (run_invariant (fun state => History state ∧ Caused session seed state)
    (fun _ transition holds =>
      ⟨history_transition transition holds.1, caused_transition transition holds.1 holds.2⟩)
    run ⟨history_coordinate session.config seed, caused_coordinate session seed⟩).2

/-! ## The order of reports and insertions -/

/-- A step that puts a peer in the tested set finds it in the current batch. -/
theorem inserted_remaining {session : Session} {state next : State} {action : Action}
    (transition : Transition session state action next) {peer : Peer}
    (before : peer ∉ state.testedPeers) (after : peer ∈ next.testedPeers) :
    peer ∈ state.coordinator.remaining := by
  cases transition with
  | coordinator rule =>
      cases rule with
      | insertPeer other rest position fresh =>
          rcases Finset.mem_insert.mp after with rfl | old
          · rw [position]
            exact List.mem_cons_self
          · exact absurd old before
      | _ => exact absurd after before
  | task found rule =>
      rw [emit_testedPeers] at after
      exact absurd after before
  | receive isOpen queued => exact absurd after before
  | hangUp isOpen => exact absurd after before

/-- In every run a tested peer other than the seed was heard of from a peer whose
`Listening` message was in the channel when the tested peer was not yet inserted,
each message by a task follows such a message for its peer, and every tested
peer is reached from the seed over peers reported `Listening`. -/
theorem tested_peers_caused (session : Session) (seed : Peer) {actions : List Action}
    {state : State}
    (run : (machine session).Run Machine.Always (coordinate session.config seed)
      actions state) :
    (∀ peer ∈ state.testedPeers, peer ≠ seed →
        ∃ source before after middle, actions = before ++ after ∧
          (machine session).Run Machine.Always (coordinate session.config seed)
            before middle ∧
          (machine session).Run Machine.Always middle after state ∧
          peer ∉ middle.testedPeers ∧
          Heard session middle.spawned middle.log source peer) ∧
      (∀ (position index : Nat) message peer,
        state.log[position]? = some (index, message) → state.spawned[index]? = some peer →
        peer ≠ seed →
        ∃ source, Heard session state.spawned (state.log.take position) source peer) ∧
      (∀ peer ∈ state.testedPeers, Reached session seed state.spawned state.log peer) := by
  have caused := caused_run run
  have history := history_run run
  refine ⟨fun peer tested other => ?_, fun position index message peer found author other => ?_,
    fun peer tested => ?_⟩
  · obtain ⟨before, action, after, middle, next, split, reach, missing, tail, stepped, inserted⟩ :=
      run.exists_establishing (fun state => peer ∈ state.testedPeers)
        (by unfold coordinate; split <;> exact Finset.notMem_empty _) tested
    have entry := inserted_remaining (transition_of_step stepped) missing inserted
    obtain ⟨source, heard⟩ :=
      ((caused_run reach).remaining (history_run reach) entry).source other
    exact ⟨source, before, action :: after, middle, split, reach, tail, missing, heard⟩
  · exact (caused.log position index message peer found author).source other
  · rcases (history.tested peer).mp tested with spawned | held
    · obtain ⟨task, member, rfl⟩ := List.mem_map.mp spawned
      obtain ⟨index, found⟩ := List.mem_iff_getElem?.mp member
      exact (caused.tasks index task found).1
    · refine caused.remaining history ?_
      cases position : state.coordinator <;> rw [position] at held <;>
        simp_all [Coordinator.held, Coordinator.remaining]

/-- The first peer of `pairSession` reports and names the second, which is then
inserted. -/
theorem tested_peers_caused_pair :
    ∃ state source, (machine pairSession).Run Machine.Always pairStart
        (List.replicate 4 .coordinator ++ List.replicate 6 (.task 0) ++
          List.replicate 4 .coordinator) state ∧
      pairPeer 2 ∈ state.testedPeers ∧
      ∃ middle : State, pairPeer 2 ∉ middle.testedPeers ∧
        Heard pairSession middle.spawned middle.log source (pairPeer 2) := by
  obtain ⟨state, run, passed⟩ := Machine.exists_run_of_execute (fun _ _ => true)
    (fun state => pairPeer 2 ∈ state.testedPeers) (fun _ _ _ => trivial)
    (show ((machine pairSession).execute (fun _ _ => true) pairStart
      (List.replicate 4 .coordinator ++ List.replicate 6 (.task 0) ++
        List.replicate 4 .coordinator)).any _ = true by decide)
  simp only [decide_eq_true_eq] at passed
  obtain ⟨source, before, after, middle, -, -, -, missing, heard⟩ :=
    (tested_peers_caused pairSession (pairPeer 1) run).1 (pairPeer 2) passed (by decide)
  exact ⟨state, source, run, passed, middle, missing, heard⟩

end BitcoinPeers.Crawler

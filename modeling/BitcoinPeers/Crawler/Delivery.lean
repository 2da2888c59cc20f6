import BitcoinPeers.Crawler.Builder
import BitcoinPeers.Crawler.Closure

/-!
Contract: what the caller of a crawl receives.

Owns:
- the messages a schedule lets the caller take from the crawl channel;
- that they are what the tasks sent, in order, with at most the capacity of the
  channel outstanding;
- that the channel ends after exactly one message for each peer processed.

Does not own: which peers are processed.
-/

namespace BitcoinPeers.Crawler

open BitcoinPeers.Foundation

/-- What the caller takes in a step. -/
def receipt (state : State) : Action → List CrawlerMessage
  | .receive => state.crawl.take 1
  | _ => []

/-- What the caller has taken on a schedule. -/
def receipts (session : Session) : State → List Action → List CrawlerMessage :=
  (machine session).trace receipt

/-- The channel holds what was sent and not taken, as long as the caller has the
receiver. -/
structure Delivered (seen : List CrawlerMessage) (state : State) : Prop where
  taken : seen <+: state.log.map Prod.snd
  queued : state.crawlOpen = true → state.log.map Prod.snd = seen ++ state.crawl
  dropped : state.crawlOpen = false → state.crawl = []
  capacity : state.crawl.length ≤ CRAWL_CHANNEL_CAPACITY

theorem delivered_coordinate (config : SessionConfig) (seed : Peer) :
    Delivered [] (coordinate config seed) := by
  unfold coordinate
  split
  · exact ⟨List.prefix_refl _, fun _ => rfl, fun _ => rfl, Nat.zero_le _⟩
  · exact ⟨List.prefix_refl _, fun _ => rfl, fun _ => rfl, Nat.zero_le _⟩

/-- A task step reports at most one message, and only when there is room for
it. -/
theorem TaskStep.messages_cases {session : Session} {state : State} {task : Task}
    {phase : TaskPhase} {effect : Effect} (rule : TaskStep session state task phase effect) :
    effect.messages = [] ∨ (∃ message, effect.messages = [message]) ∧ state.crawlPort = .ready := by
  cases rule with
  | reportNonListening position port => exact .inr ⟨⟨_, rfl⟩, port⟩
  | reportListening connection position port => exact .inr ⟨⟨_, rfl⟩, port⟩
  | _ => exact .inl rfl

theorem crawlPort_room {state : State} (ready : state.crawlPort = .ready) :
    state.crawl.length < CRAWL_CHANNEL_CAPACITY := by
  unfold State.crawlPort at ready
  split at ready
  next =>
    split at ready
    next room => exact room
    next => cases ready
  next => cases ready

theorem Delivered.report {seen : List CrawlerMessage} {state next : State}
    (delivered : Delivered seen state) {message : CrawlerMessage} {index : Nat}
    (ready : state.crawlPort = .ready) (isOpen : next.crawlOpen = state.crawlOpen)
    (crawl : next.crawl = state.crawl ++ [message])
    (log : next.log = state.log ++ [(index, message)]) : Delivered seen next := by
  have receiver := crawlPort_ready ready
  have sent : next.log.map Prod.snd = state.log.map Prod.snd ++ [message] := by
    rw [log, List.map_append]
    rfl
  refine ⟨?_, fun _ => ?_, fun closed => ?_, ?_⟩
  · rw [sent]
    exact delivered.taken.trans (List.prefix_append _ _)
  · rw [sent, crawl, delivered.queued receiver, List.append_assoc]
  · rw [isOpen, receiver] at closed
    cases closed
  · have room := crawlPort_room ready
    rw [crawl, List.length_append, List.length_singleton]
    omega

theorem delivered_transition {session : Session} {seen : List CrawlerMessage}
    {state next : State} {action : Action} (transition : Transition session state action next)
    (delivered : Delivered seen state) : Delivered (seen ++ receipt state action) next := by
  obtain ⟨taken, queued, dropped, capacity⟩ := delivered
  cases transition with
  | coordinator rule =>
      simp only [receipt, List.append_nil]
      cases rule <;> exact ⟨taken, queued, dropped, capacity⟩
  | @task index task phase effect found rule =>
      simp only [receipt, List.append_nil]
      rcases rule.messages_cases with silent | ⟨⟨message, said⟩, ready⟩
      · refine ⟨?_, ?_, ?_, ?_⟩
        all_goals simp only [emit_log, emit_crawl, emit_crawlOpen, silent, List.map_nil,
          List.append_nil]
        · exact taken
        · exact queued
        · exact dropped
        · exact capacity
      · have before : Delivered seen state := ⟨taken, queued, dropped, capacity⟩
        have grown : ((state.setTask index ⟨task.peer, phase⟩).emit index effect).log =
            state.log ++ [(index, message)] := by
          rw [emit_log, said]
          rfl
        refine before.report ready (emit_crawlOpen _ _ _) ?_ grown
        rw [emit_crawl, said]
        rfl
  | @receive message rest isOpen head =>
      have whole := queued isOpen
      rw [head] at whole
      have split : state.log.map Prod.snd = (seen ++ receipt state .receive) ++ rest := by
        rw [whole, receipt, head]
        simp
      refine ⟨?_, fun _ => split, fun closed => ?_, ?_⟩
      · rw [split]
        exact List.prefix_append _ _
      · rw [isOpen] at closed
        cases closed
      · rw [head, List.length_cons] at capacity
        exact Nat.le_of_succ_le capacity
  | hangUp isOpen =>
      simp only [receipt, List.append_nil]
      exact ⟨taken, fun still => (by cases still), fun _ => rfl, Nat.zero_le _⟩

theorem delivered_run {session : Session} {Allowed : State → Action → Prop} {seed : Peer}
    {actions : List Action} {state : State}
    (run : (machine session).Run Allowed (coordinate session.config seed) actions state) :
    Delivered (receipts session (coordinate session.config seed) actions) state := by
  have delivered := run.traced receipt Delivered
    (fun _ stepped holds => delivered_transition (transition_of_step stepped) holds)
    (delivered_coordinate session.config seed)
  rw [List.nil_append] at delivered
  exact delivered

/-- On every schedule the caller has taken a beginning of what the tasks sent;
while it has the receiver, the rest is queued, at most 1000 messages. A caller
that keeps the receiver and meets the end of the channel has taken exactly one
message for each spawned peer, the one the connector's answer determines. -/
theorem caller_receives_every_report (session : Session) (seed : Peer) {actions : List Action}
    {state : State}
    (run : (machine session).Run Machine.Always (coordinate session.config seed)
      actions state) :
    receipts session (coordinate session.config seed) actions <+: state.log.map Prod.snd ∧
    (state.crawlOpen = true → state.log.map Prod.snd =
      receipts session (coordinate session.config seed) actions ++ state.crawl) ∧
    state.crawl.length ≤ CRAWL_CHANNEL_CAPACITY ∧
    ((machine session).Run KeepsReceiver (coordinate session.config seed) actions state →
      state.SendersGone → state.crawl = [] →
      (receipts session (coordinate session.config seed) actions).Perm
        (state.spawned.map session.report)) := by
  have delivered := delivered_run run
  refine ⟨delivered.taken, delivered.queued, delivered.capacity, fun kept gone empty => ?_⟩
  have reports := log_perm_reports kept gone.2
  rw [delivered.queued (crawlOpen_run kept), empty, List.append_nil] at reports
  exact reports

/-- The crawl of `calmSchedule`, and then the caller takes both messages. -/
def receivingSchedule : List Action := calmSchedule ++ [.receive, .receive]

theorem caller_receives_every_report_pair :
    ∃ state, (machine pairSession).Run Machine.Always pairStart receivingSchedule state ∧
      state.spawned.length = 2 ∧
      (receipts pairSession pairStart receivingSchedule).Perm
        (state.spawned.map pairSession.report) := by
  obtain ⟨state, run, passed⟩ := Machine.exists_run_of_execute keepsReceiver
    (fun state => decide (state.coordinator = .exited .exhausted ∧ state.crawl = [] ∧
      state.spawned.length = 2)) keepsReceiver_sound
    (show ((machine pairSession).execute keepsReceiver pairStart receivingSchedule).any _ =
      true by decide)
  obtain ⟨exited, empty, both⟩ := of_decide_eq_true passed
  have always : (machine pairSession).Run Machine.Always pairStart receivingSchedule state :=
    run.mono fun _ _ _ => trivial
  have gone : state.SendersGone := ⟨by rw [exited]; rfl, ((accounting_run run).drained exited).1⟩
  exact ⟨state, always, both,
    (caller_receives_every_report pairSession (pairPeer 1) always).2.2.2 run gone empty⟩

end BitcoinPeers.Crawler

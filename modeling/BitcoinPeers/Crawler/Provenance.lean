import BitcoinPeers.Crawler.History

/-!
Contract: where the peers and connections of a session come from.

Owns the provenance invariant: a property of peers that the seed has and that
every answer of `get_peers` hands on holds of every peer on a channel, in a task
or in the tested set; and a task that holds a connection got it from the
connector.

Does not own: any particular property of peers.
-/

namespace BitcoinPeers.Crawler

open BitcoinPeers.Foundation

/-- A peer with the property answers `get_peers` with such peers only. -/
def Inherited (session : Session) (Known : Peer → Prop) : Prop :=
  ∀ peer, Known peer → ∀ connection discovered,
    session.connector session.config.peerTimeout peer = .connected connection →
    connection.getPeers session.config.peerTimeout = .ok discovered →
    ∀ other ∈ discovered, Known other

/-- What a program point carries was answered by the connector, or has the
property. -/
def TaskPhase.Carries (session : Session) (Known : Peer → Prop) (peer : Peer) :
    TaskPhase → Prop
  | .sendingListening connection | .gettingPeers connection =>
      session.connector session.config.peerTimeout peer = .connected connection
  | .filtering peers | .sendingPeers peers => ∀ other ∈ peers, Known other
  | _ => True

structure Sourced (session : Session) (Known : Peer → Prop) (state : State) : Prop where
  sent : ∀ peers ∈ state.sent, ∀ peer ∈ peers, Known peer
  tasks : ∀ task ∈ state.tasks, Known task.peer ∧ task.phase.Carries session Known task.peer

theorem sourced_coordinate {session : Session} {Known : Peer → Prop} {seed : Peer}
    (known : Known seed) : Sourced session Known (coordinate session.config seed) := by
  unfold coordinate
  split
  · exact ⟨fun peers sent => (nomatch sent), fun task member => (nomatch member)⟩
  · refine ⟨fun peers sent peer member => ?_, fun task member => nomatch member⟩
    change peers ∈ [[seed]] at sent
    rw [List.mem_singleton.mp sent, List.mem_singleton] at member
    rw [member]
    exact known

/-- The entries the coordinator has still to look at have the property. -/
theorem Sourced.remaining {session : Session} {Known : Peer → Prop} {state : State}
    (sourced : Sourced session Known state) (history : History state) {peer : Peer}
    (member : peer ∈ state.coordinator.remaining) : Known peer := by
  obtain ⟨peers, sent, here⟩ := history.mem_sent member
  exact sourced.sent peers sent peer here

/-- One task step hands on what the task carries. -/
theorem TaskStep.carries {session : Session} {Known : Peer → Prop} {state : State} {task : Task}
    {phase : TaskPhase} {effect : Effect} (rule : TaskStep session state task phase effect)
    (inherited : Inherited session Known) (known : Known task.peer)
    (carried : task.phase.Carries session Known task.peer) :
    phase.Carries session Known task.peer ∧
      ∀ peers ∈ effect.batches, ∀ peer ∈ peers, Known peer := by
  cases rule with
  | connected connection position answer => exact ⟨answer, nofun⟩
  | reportListening connection position port =>
      rw [position] at carried
      exact ⟨carried, nofun⟩
  | gotPeers connection discovered position answer nonempty =>
      rw [position] at carried
      exact ⟨inherited task.peer known connection discovered carried answer, nofun⟩
  | filteredSome discovered position nonempty =>
      rw [position] at carried
      refine ⟨fun other member => ?_, nofun⟩
      exact carried other (List.mem_of_mem_filter member)
  | discover filtered position live =>
      rw [position] at carried
      refine ⟨trivial, fun peers sent => ?_⟩
      rw [List.mem_singleton.mp sent]
      exact carried
  | _ => exact ⟨trivial, nofun⟩

theorem sourced_coordinatorStep {session : Session} {Known : Peer → Prop} {state next : State}
    (rule : CoordinatorStep session.config state next) (history : History state)
    (sourced : Sourced session Known state) : Sourced session Known next := by
  cases rule with
  | spawn peer rest position below =>
      refine ⟨sourced.sent, fun task member => ?_⟩
      rcases List.mem_append.mp member with old | new
      · exact sourced.tasks task old
      · rw [List.mem_singleton.mp new]
        refine ⟨sourced.remaining history ?_, trivial⟩
        rw [position]
        exact List.mem_cons_self
  | _ => exact ⟨sourced.sent, sourced.tasks⟩

theorem sourced_transition {session : Session} {Known : Peer → Prop}
    (inherited : Inherited session Known) {state next : State} {action : Action}
    (transition : Transition session state action next) (history : History state)
    (sourced : Sourced session Known state) : Sourced session Known next := by
  cases transition with
  | coordinator rule => exact sourced_coordinatorStep rule history sourced
  | @task index task phase effect found rule =>
      obtain ⟨known, carried⟩ := sourced.tasks task (List.mem_of_getElem? found)
      obtain ⟨carries, batches⟩ := rule.carries inherited known carried
      refine ⟨fun peers sent => ?_, fun other member => ?_⟩
      · rw [emit_sent] at sent
        rcases List.mem_append.mp sent with old | new
        · exact sourced.sent peers old
        · exact batches peers new
      · rw [emit_tasks] at member
        rcases List.mem_or_eq_of_mem_set member with old | new
        · exact sourced.tasks other old
        · rw [new]
          exact ⟨known, carries⟩
  | receive isOpen queued => exact ⟨sourced.sent, sourced.tasks⟩
  | hangUp isOpen => exact ⟨sourced.sent, sourced.tasks⟩

theorem sourced_run {session : Session} {Known : Peer → Prop} {Allowed : State → Action → Prop}
    (inherited : Inherited session Known) {seed : Peer} (known : Known seed)
    {actions : List Action} {state : State}
    (run : (machine session).Run Allowed (coordinate session.config seed) actions state) :
    Sourced session Known state :=
  (run_invariant (fun state => History state ∧ Sourced session Known state)
    (fun _ transition holds =>
      ⟨history_transition transition holds.1,
        sourced_transition inherited transition holds.1 holds.2⟩)
    run ⟨history_coordinate session.config seed, sourced_coordinate known⟩).2

/-- Every property of a session's connections holds with no property of peers:
a held connection is the connector's answer. -/
theorem inherited_any (session : Session) : Inherited session fun _ => True :=
  fun _ _ _ _ _ _ _ _ => trivial

end BitcoinPeers.Crawler

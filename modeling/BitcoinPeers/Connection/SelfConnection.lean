import BitcoinPeers.Connection.Agreement

/-!
Contract: a node whose outbound connection reaches its own listener.

Owns the exact condition under which the nonce check ends such a link with
`ConnectionLoop`: the two handshakes read the same clock value, cut to 64 bits.
A handshake compares a received nonce with its own only, and each handshake
draws its own.
-/

namespace BitcoinPeers.Connection.Duplex

open BitcoinPeers.Foundation Computation

/-! ## Nonces of one process -/

theorem generateNonce_eq_iff (left right : Nat) (processId : UInt32) :
    generateNonce left processId = generateNonce right processId ↔
      left % 2 ^ 64 = right % 2 ^ 64 := by
  unfold generateNonce
  simp only [UInt64.xor_left_inj]
  rw [← UInt64.toNat_inj]
  simp

/-- Two connections of one process, the left one from `connect` and the right
one from `accept`, each with its own reading of the clock. -/
def selfParties (configuration : Side → ConnectionConfiguration) (peer : Side → Peer)
    (nanoseconds : Side → Nat) (unixTimestamp : Side → Int64) (processId : UInt32) :
    Side → Party :=
  fun side =>
    { configuration := configuration side, peer := peer side
      nonce := generateNonce (nanoseconds side) processId
      unixTimestamp := unixTimestamp side }

/-! ## Every link comes to rest -/

variable {parties : Side → Party}

/-- No handshake can move. -/
def Quiescent (parties : Side → Party) (duplex : Duplex) : Prop :=
  ∀ side, (machine parties).step duplex (.act side) = none

/-- The step is one of a handshake. -/
def Acts (_ : Duplex) (action : Action) : Prop := ∃ side, action = .act side

/-- A loop test that is due. -/
def testCost : Handshake → Nat
  | .running (.done _ _) => 1
  | _ => 0

theorem testCost_resume (nonce : UInt64)
    (process : Process Connection Request Answer (Except ConnectionError HandshakeState)) :
    testCost (.resume nonce process) = 0 := by
  cases process with
  | ask connection request answered => rfl
  | done connection outcome =>
      cases outcome with
      | error error => rfl
      | ok state =>
          cases state with
          | complete => rfl
          | _ =>
              simp only [Handshake.resume]
              rw [handshakeRound_eq]
              rfl

/-- The steps an end has left. A handshake writes at most five messages. -/
def endCost (here : End) : Nat :=
  (5 - here.written.length) + (5 - here.consumed.length) + testCost here.call

def linkCost (duplex : Duplex) : Nat := endCost (duplex .left) + endCost (duplex .right)

theorem linkCost_eq (duplex : Duplex) (side : Side) :
    linkCost duplex = endCost (duplex side) + endCost (duplex side.other) := by
  cases side with
  | left => rfl
  | right => exact Nat.add_comm _ _

theorem Linked.written_length {duplex : Duplex} (linked : Linked parties duplex) (side : Side) :
    (duplex side).written.length ≤ 5 := by
  have whole := congrArg List.length (linked.written_append side)
  rw [List.length_append] at whole
  rcases linked.handshake_shape side with shape | ⟨version, shape⟩
  · rw [shape, List.length_singleton] at whole
    omega
  · have short : (negotiation (parties side).configuration.featurePreferences
        (effectiveVersion (parties side).configuration version)).length ≤ 3 := by
      rw [negotiation, List.length_map]
      exact List.length_filter_le _ Feature.all
    rw [shape, List.length_append, List.length_cons, List.length_singleton] at whole
    omega

theorem Linked.consumed_length {duplex : Duplex} (linked : Linked parties duplex) (side : Side) :
    (duplex side).consumed.length ≤ 5 := by
  obtain ⟨rest, read⟩ := linked.consumed_append side
  have bound := linked.written_length side.other
  rw [read, List.length_append] at bound
  omega

theorem linkCost_act {duplex next : Duplex} {side : Side} (linked : Linked parties duplex)
    (stepped : step parties duplex (.act side) = some next) : linkCost next < linkCost duplex := by
  have after := linked_act linked stepped
  have written := after.written_length side
  have consumed := after.consumed_length side
  rw [linkCost_eq next side, linkCost_eq duplex side]
  simp only [step] at stepped
  split at stepped
  next connection message answered position =>
    cases stepped
    rw [send_same, List.length_append, List.length_singleton] at written
    simp only [send_same, send_other, endCost, testCost_resume, List.length_append,
      List.length_singleton]
    omega
  next connection answered position =>
    split at stepped
    next message rest queued =>
      cases stepped
      rw [put_same, List.length_append, List.length_singleton] at consumed
      simp only [put_same, put_other, endCost, testCost_resume, List.length_append,
        List.length_singleton]
      omega
    next => contradiction
  next connection outcome position =>
    cases stepped
    have due : testCost (duplex side).call = 1 := by
      rw [position]
      rfl
    simp only [put_same, put_other, endCost, testCost_resume, due]
    omega
  next => contradiction

theorem exists_quiescent (parties : Side → Party) :
    ∃ actions duplex, (machine parties).Run Machine.Always (start parties) actions duplex ∧
      Quiescent parties duplex := by
  have maximal : ∃ actions duplex, (machine parties).Run Acts (start parties) actions duplex ∧
      ∀ action, Acts duplex action → (machine parties).step duplex action = none := by
    apply Machine.Run.exists_maximal linkCost _ _ (linked_start parties)
    · rintro state next action ⟨side, rfl⟩ stepped linked
      exact linked_act linked stepped
    · rintro state next action ⟨side, rfl⟩ linked stepped
      exact linkCost_act linked stepped
  obtain ⟨actions, duplex, run, ended⟩ := maximal
  exact ⟨actions, duplex, run.mono fun _ _ _ => trivial, fun side => ended (.act side) ⟨side, rfl⟩⟩

/-! ## Detection -/

/-- Every run that has come to rest has an end that returned `ConnectionLoop`,
and in no run do both handshakes complete. -/
def LoopDetected (parties : Side → Party) : Prop :=
  (∀ actions duplex, (machine parties).Run Machine.Always (start parties) actions duplex →
    Quiescent parties duplex → ∃ side, duplex.Detected side) ∧
  ∀ actions duplex, (machine parties).Run Machine.Always (start parties) actions duplex →
    ¬ (duplex.Completed .left ∧ duplex.Completed .right)

/-- With one nonce on both ends no handshake completes. -/
theorem Linked.not_completed {duplex : Duplex} (linked : Linked parties duplex) {side : Side}
    (same : (parties side).nonce = (parties side.other).nonce) : ¬ duplex.Completed side := by
  rintro ⟨connection, completed⟩
  obtain ⟨-, unlooped, version, first, -⟩ := linked.completed completed
  have member := mem_of_firstVersion first
  have opened := linked.version_read member
  obtain ⟨greeting, here, nonce, -⟩ := greeting_eq (parties side.other)
  rw [here] at opened
  cases opened
  exact unlooped ⟨version, member, nonce.trans same.symm⟩

/-- With one nonce on both ends a link at rest has an end that returned
`ConnectionLoop`. -/
theorem Linked.detected {duplex : Duplex} (linked : Linked parties duplex)
    (same : ∀ side, (parties side).nonce = (parties side.other).nonce)
    (quiet : Quiescent parties duplex) : ∃ side, duplex.Detected side := by
  by_contra undetected
  have starved : ∀ side, duplex.Starved side := by
    intro side
    rcases linked.settled (quiet side) with starved | completed | ⟨detected, -⟩
    · exact starved
    · exact absurd completed (linked.not_completed (same side))
    · exact absurd ⟨side, detected⟩ undetected
  obtain ⟨read, undecided, -⟩ := linked.starved (starved .left)
  obtain ⟨-, -, written⟩ := linked.starved (starved .right)
  obtain ⟨greeting, here, nonce, -⟩ := greeting_eq (parties .right)
  apply undecided.1
  refine ⟨greeting, ?_, nonce.trans (same .left).symm⟩
  rw [read, ← here]
  change _ ∈ (duplex .right).written ++ _
  rw [written]
  exact List.mem_append_left _ List.mem_cons_self

/-- A link of a node to itself is detected in every run exactly when both
handshakes read the same clock value. -/
theorem self_connection_detected_iff (configuration : Side → ConnectionConfiguration)
    (peer : Side → Peer) (nanoseconds : Side → Nat) (unixTimestamp : Side → Int64)
    (processId : UInt32) :
    LoopDetected (selfParties configuration peer nanoseconds unixTimestamp processId) ↔
      nanoseconds .left % 2 ^ 64 = nanoseconds .right % 2 ^ 64 := by
  rw [← generateNonce_eq_iff _ _ processId]
  constructor
  · intro detected
    by_contra distinct
    obtain ⟨actions, duplex, run, quiet⟩ :=
      exists_quiescent (selfParties configuration peer nanoseconds unixTimestamp processId)
    apply detected.2 actions duplex run
    by_contra unfinished
    obtain ⟨side, next, stepped⟩ := (linked_run run).moves distinct unfinished
    have none := quiet side
    rw [show (machine _).step duplex (.act side) = some next from stepped] at none
    cases none
  · intro same
    have both : ∀ side,
        (selfParties configuration peer nanoseconds unixTimestamp processId side).nonce =
          (selfParties configuration peer nanoseconds unixTimestamp processId
            side.other).nonce := by
      intro side
      cases side with
      | left => exact same
      | right => exact same.symm
    exact ⟨fun actions duplex run quiet => (linked_run run).detected both quiet,
      fun actions duplex run done => (linked_run run).not_completed (both .left) done.1⟩

/-- A node of the default configuration that connects to itself, with clock
readings one nanosecond apart. -/
def selfSample : Side → Party :=
  selfParties (fun _ => .nonListening (.known 70016) .v2Preferred {} none)
    (fun _ => .new (.ipv4 1) 8333)
    (fun
      | .left => 1700000000000000000
      | .right => 1700000000000000001)
    (fun _ => 1700000000) 4242

/-- Both open, the left end answers, the right end runs to its end, then the
left one. -/
def selfSchedule : List Action :=
  [.act .left, .act .right] ++ List.replicate 5 (.act .left) ++
    List.replicate 9 (.act .right) ++ List.replicate 4 (.act .left)

/-- Both handshakes of `selfSample` complete. -/
theorem self_connection_undetected :
    (∃ duplex, (machine selfSample).Run Machine.Always (start selfSample) selfSchedule duplex ∧
      duplex.Completed .left ∧ duplex.Completed .right) ∧ ¬ LoopDetected selfSample := by
  obtain ⟨duplex, run, passed⟩ := Machine.exists_run_of_execute (fun _ _ => true)
    (fun duplex => duplex.completed .left && duplex.completed .right) (fun _ _ _ => trivial)
    (show ((machine selfSample).execute (fun _ _ => true) (start selfSample) selfSchedule).any _ =
      true by decide)
  rw [Bool.and_eq_true] at passed
  have left := completed_sound passed.1
  have right := completed_sound passed.2
  exact ⟨⟨duplex, run, left, right⟩, fun detected => detected.2 _ _ run ⟨left, right⟩⟩

end BitcoinPeers.Connection.Duplex

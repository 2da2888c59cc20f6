import BitcoinPeers.Connection.Duplex

/-!
Contract: what two handshakes with different nonces agree on.

Owns progress of the link until both ends have completed, and the agreement of
the two connections: effective version, feature states, peer records and the
exact messages exchanged.

Does not own: links of a node to itself.
-/

namespace BitcoinPeers.Connection.Duplex

open BitcoinPeers.Foundation Computation

variable {parties : Side → Party} {duplex : Duplex}

/-! ## Ends that cannot move -/

/-- The end waits for a message and none is on its channel. -/
def Starved (duplex : Duplex) (side : Side) : Prop :=
  (duplex side).incoming = [] ∧
    ∃ connection answered, (duplex side).call = .running (.ask connection .read answered)

theorem returned_or_starved {side : Side} (quiet : step parties duplex (.act side) = none) :
    duplex.Starved side ∨
      ∃ connection result, (duplex side).call = .returned connection result := by
  simp only [step] at quiet
  split at quiet
  next => cases quiet
  next connection answered position =>
    split at quiet
    next => cases quiet
    next empty => exact .inl ⟨empty, connection, answered, position⟩
  next => cases quiet
  next connection result position => exact .inr ⟨connection, result, position⟩

/-- An end that cannot move is starved, or has returned `Ok` or
`ConnectionLoop`. -/
theorem Linked.settled (linked : Linked parties duplex) {side : Side}
    (quiet : step parties duplex (.act side) = none) :
    duplex.Starved side ∨ duplex.Completed side ∨
      (duplex.Detected side ∧ Loops (parties side).nonce (duplex side).consumed) := by
  rcases returned_or_starved quiet with starved | ⟨connection, result, position⟩
  · exact .inl starved
  · right
    have stage := linked.stage side
    rw [linked.returned position] at stage
    rcases stage.result_eq rfl with rfl | ⟨rfl, loops⟩
    · exact .inl ⟨connection, position⟩
    · exact .inr ⟨⟨connection, position⟩, loops⟩

/-- A starved end has read everything the other end has written, is undecided,
and has nothing left to write. -/
theorem Linked.starved (linked : Linked parties duplex) {side : Side}
    (starved : duplex.Starved side) :
    (duplex side).consumed = (duplex side.other).written ++ (duplex side.other).posted ∧
      Undecided (parties side).nonce (duplex side).consumed ∧
      (duplex side).written = (parties side).greeting ::
        match firstVersion (duplex side).consumed with
        | none => []
        | some version => reply (parties side).configuration version := by
  obtain ⟨empty, connection, answered, position⟩ := starved
  have flow := linked.flow side.other
  rw [Side.other_other, empty, List.append_nil] at flow
  have stage := linked.stage side
  have here := linked.waits position
  have undecided : Undecided (parties side).nonce (duplex side).consumed :=
    stage.undecided (by rw [here])
  have written := stage.written_eq
  rw [here, handledVersion_of_not_loops undecided.1] at written
  exact ⟨flow, undecided, written⟩

/-- The opening message of an end is a version message with its nonce. -/
theorem greeting_eq (party : Party) :
    ∃ version, party.greeting = .version version ∧ version.nonce = party.nonce ∧
      version.version = party.configuration.localVersion ∧
      version.services = party.configuration.services :=
  ⟨_, rfl, rfl, rfl, rfl⟩

/-- The only version message an end can read is the other's opening. -/
theorem Linked.version_read (linked : Linked parties duplex) {side : Side}
    {version : VersionMessage} (member : .version version ∈ (duplex side).consumed) :
    .version version = (parties side.other).greeting := by
  obtain ⟨rest, read⟩ := linked.consumed_append side
  apply linked.version_mem
  rw [linked.written_append side.other, read]
  exact List.mem_append_left _ (List.mem_append_left _ member)

theorem Linked.not_loops (linked : Linked parties duplex) {side : Side}
    (distinct : (parties side).nonce ≠ (parties side.other).nonce) :
    ¬ Loops (parties side).nonce (duplex side).consumed := by
  rintro ⟨version, member, equal⟩
  have opened := linked.version_read member
  obtain ⟨greeting, same, nonce, -⟩ := greeting_eq (parties side.other)
  rw [same] at opened
  cases opened
  exact distinct (equal.symm.trans nonce)

/-! ## Progress -/

/-- An end is starved only while the other end can still move. -/
theorem Linked.other_moves (linked : Linked parties duplex) {side : Side}
    (distinct : (parties side).nonce ≠ (parties side.other).nonce)
    (starved : duplex.Starved side) :
    step parties duplex (.act side.other) ≠ none := by
  intro quiet
  obtain ⟨read, undecided, written⟩ := linked.starved starved
  rcases linked.settled quiet with starvedOther | ⟨connection, completed⟩ | ⟨-, loops⟩
  · obtain ⟨readOther, undecidedOther, writtenOther⟩ := linked.starved starvedOther
    rw [Side.other_other] at readOther
    have opened : (parties side.other).greeting ∈ (duplex side).consumed := by
      rw [read, writtenOther]
      exact List.mem_append_left _ List.mem_cons_self
    obtain ⟨version, first⟩ : ∃ version, firstVersion (duplex side).consumed = some version := by
      rw [← Option.ne_none_iff_exists']
      exact fun none => firstVersion_eq_none.mp none _ opened
    rw [first] at written
    apply undecidedOther.2
    rw [readOther, written]
    exact (exchanged_handshake (parties side) version).append_right _
  · obtain ⟨-, -, version, -, writtenOther⟩ := linked.completed completed
    apply undecided.2
    rw [read, writtenOther]
    exact (exchanged_handshake (parties side.other) version).append_right _
  · apply linked.not_loops _ loops
    rw [Side.other_other]
    exact distinct.symm

theorem distinct_sides (distinct : (parties .left).nonce ≠ (parties .right).nonce) (side : Side) :
    (parties side).nonce ≠ (parties side.other).nonce := by
  cases side with
  | left => exact distinct
  | right => exact distinct.symm

/-- A link with different nonces moves until both ends have completed. -/
theorem Linked.moves (linked : Linked parties duplex)
    (distinct : (parties .left).nonce ≠ (parties .right).nonce)
    (unfinished : ¬ (duplex.Completed .left ∧ duplex.Completed .right)) :
    ∃ side next, step parties duplex (.act side) = some next := by
  by_contra stuck
  have quiet : ∀ side, step parties duplex (.act side) = none := by
    intro side
    rw [Option.eq_none_iff_forall_not_mem]
    exact fun next stepped => stuck ⟨side, next, stepped⟩
  have completed : ∀ side, duplex.Completed side := by
    intro side
    rcases linked.settled (quiet side) with starved | completed | ⟨-, loops⟩
    · exact absurd (quiet side.other) (linked.other_moves (distinct_sides distinct side) starved)
    · exact completed
    · exact absurd loops (linked.not_loops (distinct_sides distinct side))
  exact unfinished ⟨completed .left, completed .right⟩

/-! ## Agreement -/

theorem min_comm_version (left right : UInt32) : min left right = min right left := by
  change (if left ≤ right then left else right) = (if right ≤ left then right else left)
  by_cases le : left ≤ right
  · by_cases ge : right ≤ left
    · rw [if_pos le, if_pos ge]
      exact UInt32.le_antisymm le ge
    · rw [if_pos le, if_neg ge]
  · rw [if_neg le, if_pos ((UInt32.le_total left right).resolve_left le)]

/-- What a completed end holds about the other. -/
theorem Linked.holds (linked : Linked parties duplex) {side : Side} {connection : Connection}
    (completed : duplex.CompletedWith side connection) :
    (duplex side).consumed = (duplex side.other).written ∧
      connection.state.effectiveProtocolVersion =
        .known (min (parties side).configuration.localVersion
          (parties side.other).configuration.localVersion) ∧
      connection.peer.services = .known (parties side.other).configuration.services ∧
      connection.peer.version = .known (parties side.other).configuration.localVersion ∧
      ∀ feature, stateOf connection.state feature =
        .recording (heard (duplex side).written feature.message)
          (heard (duplex side.other).written feature.message) := by
  obtain ⟨exchanged, -, -⟩ := linked.completed completed
  obtain ⟨consumed, -⟩ := linked.consumed_all exchanged.2
  have stage := linked.stage side
  rw [linked.returned completed] at stage
  obtain ⟨version, first, effective, peer, features⟩ := stage.connection_eq rfl
  obtain ⟨greeting, same, -, localVersion, services⟩ := greeting_eq (parties side.other)
  have opened := linked.version_read (mem_of_firstVersion first)
  rw [same] at opened
  cases opened
  refine ⟨consumed, ?_, ?_, ?_, fun feature => ?_⟩
  · rw [effective, localVersion]
  · rw [peer, services]
  · rw [peer, localVersion]
  · rw [features feature, ← consumed]

/-- Two handshakes with different nonces: some end can move until both have
completed; an end reads nothing but the other's handshake; and the two completed
connections agree. -/
theorem handshake_agreement (parties : Side → Party)
    (distinct : (parties .left).nonce ≠ (parties .right).nonce)
    {actions : List Action} {duplex : Duplex}
    (run : (machine parties).Run Machine.Always (start parties) actions duplex) :
    (¬ (duplex.Completed .left ∧ duplex.Completed .right) →
      ∃ side next, (machine parties).step duplex (.act side) = some next) ∧
    (∀ side, (duplex side).consumed <+: (duplex side.other).written) ∧
    ∀ left right, duplex.CompletedWith .left left → duplex.CompletedWith .right right →
      let version := min (parties .left).configuration.localVersion
        (parties .right).configuration.localVersion
      (left.state.effectiveProtocolVersion = .known version ∧
        right.state.effectiveProtocolVersion = .known version) ∧
      (∀ feature,
        (stateOf left.state feature = .enabled ↔ stateOf right.state feature = .enabled) ∧
        (stateOf left.state feature = .sentOnly ↔
          stateOf right.state feature = .receivedOnly) ∧
        (stateOf left.state feature = .receivedOnly ↔
          stateOf right.state feature = .sentOnly)) ∧
      (left.peer.services = .known (parties .right).configuration.services ∧
        left.peer.version = .known (parties .right).configuration.localVersion ∧
        right.peer.services = .known (parties .left).configuration.services ∧
        right.peer.version = .known (parties .left).configuration.localVersion) ∧
      (duplex .left).consumed = (duplex .right).written ∧
      (duplex .right).consumed = (duplex .left).written := by
  have linked := linked_run run
  refine ⟨linked.moves distinct, fun side => ?_, fun left right leftDone rightDone => ?_⟩
  · obtain ⟨rest, read⟩ := linked.consumed_append side
    exact ⟨rest, read.symm⟩
  · obtain ⟨leftRead, leftVersion, leftServices, leftPeer, leftFeatures⟩ := linked.holds leftDone
    obtain ⟨rightRead, rightVersion, rightServices, rightPeer, rightFeatures⟩ :=
      linked.holds rightDone
    refine ⟨⟨leftVersion, ?_⟩, fun feature => ?_,
      ⟨leftServices, leftPeer, rightServices, rightPeer⟩, leftRead, rightRead⟩
    · rw [rightVersion, min_comm_version]
      rfl
    · rw [leftFeatures, rightFeatures]
      exact FeatureState.recording_mirror _ _

/-- Two clients of different versions and preferences. -/
def samplePair (nonces : Side → UInt64) : Side → Party
  | .left =>
      { configuration := .nonListening (.known 70016) .v2Preferred {} none
        peer := .new (.ipv4 1) 8333, nonce := nonces .left, unixTimestamp := 0 }
  | .right =>
      { configuration := .nonListening (.known 70013) .v2Preferred { enableAddrv2 := false } none
        peer := .new (.ipv4 2) 8333, nonce := nonces .right, unixTimestamp := 0 }

/-- Both open; the left end answers, then the right end runs to its end, then
the left one. -/
def sampleSchedule : List Action :=
  [.act .left, .act .right] ++ List.replicate 3 (.act .left) ++
    List.replicate 5 (.act .right) ++ List.replicate 2 (.act .left)

/-- The executable form of `Completed`. -/
def completed (duplex : Duplex) (side : Side) : Bool :=
  match (duplex side).call with
  | .returned _ (.ok ()) => true
  | _ => false

theorem completed_sound {side : Side} (passed : duplex.completed side = true) :
    duplex.Completed side := by
  unfold completed at passed
  split at passed
  next connection position => exact ⟨connection, position⟩
  next => cases passed

/-- The nonces of two processes. -/
def sampleNonces : Side → UInt64
  | .left => 1
  | .right => 2

theorem handshake_agreement_sample :
    (samplePair sampleNonces .left).nonce ≠ (samplePair sampleNonces .right).nonce ∧
      ∃ duplex left right, (machine (samplePair sampleNonces)).Run Machine.Always
          (start (samplePair sampleNonces)) sampleSchedule duplex ∧
        duplex.CompletedWith .left left ∧ duplex.CompletedWith .right right ∧
        left.state.effectiveProtocolVersion = .known 70013 ∧
        (stateOf left.state .sendHeaders = .enabled ↔
          stateOf right.state .sendHeaders = .enabled) := by
  refine ⟨by decide, ?_⟩
  obtain ⟨duplex, run, passed⟩ := Machine.exists_run_of_execute (fun _ _ => true)
    (fun duplex => duplex.completed .left && duplex.completed .right) (fun _ _ _ => trivial)
    (show ((machine (samplePair sampleNonces)).execute (fun _ _ => true)
      (start (samplePair sampleNonces)) sampleSchedule).any _ = true by decide)
  rw [Bool.and_eq_true] at passed
  obtain ⟨left, leftDone⟩ := completed_sound passed.1
  obtain ⟨right, rightDone⟩ := completed_sound passed.2
  have agreement := (handshake_agreement (samplePair sampleNonces) (by decide) run).2.2
    left right leftDone rightDone
  exact ⟨duplex, left, right, run, leftDone, rightDone, agreement.1.1,
    (agreement.2.1 .sendHeaders).1⟩

end BitcoinPeers.Connection.Duplex

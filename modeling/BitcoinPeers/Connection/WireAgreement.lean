import BitcoinPeers.Connection.WireRefinement

/-!
Contract: two connections over byte streams, from the first byte on.

Owns, for every way the sockets cut the streams:
- that the handshakes never fail, cannot stall, and agree when both have
  completed;
- that the application of each end receives what the other's has written.

Does not own: how many socket operations that takes; closed or failing sockets,
or links of a node to itself.
-/

namespace BitcoinPeers.Connection

open BitcoinPeers.Foundation BitcoinPeers.Transport

namespace Wire

variable {codec : Codec} {parties : Side → Party} {wire : Wire} {duplex : Duplex}

/-- Nothing can happen but that an application starts to write. -/
def Quiet (codec : Codec) (parties : Side → Party) (wire : Wire) : Prop :=
  ∀ action next, (machine codec parties).step wire action = some next →
    ∃ side message, action = .post side message

/-! ## Quiet wires -/

theorem Quiet.idle (quiet : Quiet codec parties wire) (side : Side) :
    (wire side).writing = none := by
  cases under : (wire side).writing with
  | none => rfl
  | some data =>
      cases data with
      | nil =>
          obtain ⟨_, _, other⟩ := quiet _ _ (step_of_moves (.finish under))
          cases other
      | cons byte rest =>
          have moves : Moves codec parties wire (.push side 0) _ :=
            .push under (List.cons_ne_nil byte rest)
          obtain ⟨_, _, other⟩ := quiet _ _ (step_of_moves moves)
          cases other

/-- An end that reads can take what has arrived. -/
theorem exists_pull {side : Side} (arrived : (wire side).arriving ≠ [])
    (reads : (wire side).Reads) :
    ∃ next, (machine codec parties).step wire (.pull side 0) = some next := by
  cases ending : (called codec (wire side) 0).call with
  | finished result =>
      rcases reads with ⟨connection, answered, position⟩ | ⟨connection, position⟩
      · exact ⟨_, step_of_moves (.read arrived position ending)⟩
      · exact ⟨_, step_of_moves (.take arrived position ending)⟩
  | cancelled => exact ⟨_, step_of_moves (.wait arrived reads (by simp [ending]))⟩
  | interrupted error => exact ⟨_, step_of_moves (.wait arrived reads (by simp [ending]))⟩

/-- On a quiet wire an end that reads has nothing on its way. -/
theorem Represents.drained (represents : Represents codec parties wire duplex)
    (quiet : Quiet codec parties wire) {side : Side} (reads : (wire side).Reads) :
    (wire side).received = (duplex side).incoming.map .ok := by
  obtain ⟨taken, queued, received, incoming, bytes, carried⟩ := represents.flow side
  cases queued with
  | nil => rw [received, incoming, List.append_nil]
  | cons message later =>
      exfalso
      have sound := carried message List.mem_cons_self
      have sent : (wire side.other).unsent = [] := by
        rw [Node.unsent, quiet.idle side.other]
        rfl
      rw [sent, List.append_nil, codec.encodeAll_cons] at bytes
      by_cases arrived : (wire side).arriving = []
      · obtain ⟨part, incomplete⟩ := (represents.proper side).waits.incomplete
        rw [arrived, List.append_nil] at bytes
        rw [bytes, sound.cutFrame] at incomplete
        cases incomplete
      · obtain ⟨next, stepped⟩ : ∃ next, (machine codec parties).step wire (.pull side 0) =
          some next := exists_pull arrived reads
        obtain ⟨_, _, other⟩ := quiet _ _ stepped
        cases other

theorem Represents.call_of_idle (represents : Represents codec parties wire duplex) {side : Side}
    (idle : (wire side).writing = none) : (duplex side).call = (wire side).call := by
  rw [(represents.ends side).call, Node.settled, idle]

/-- An end whose handshake has returned is at that result in the link too. -/
theorem Represents.call_of_returned (represents : Represents codec parties wire duplex)
    {side : Side} {connection : Connection} {result : Except ConnectionError Unit}
    (returned : (wire side).call = .returned connection result) :
    (duplex side).call = .returned connection result := by
  rw [(represents.ends side).call, Node.settled]
  cases (wire side).writing with
  | none => exact returned
  | some data => simp only [returned, resumed]

/-- On a quiet wire both handshakes have completed. -/
theorem Represents.completed (represents : Represents codec parties wire duplex)
    (distinct : (parties .left).nonce ≠ (parties .right).nonce)
    (quiet : Quiet codec parties wire) : wire.Completed .left ∧ wire.Completed .right := by
  have same : ∀ side, duplex.Completed side → wire.Completed side := by
    rintro side ⟨connection, completed⟩
    rw [Duplex.CompletedWith, represents.call_of_idle (quiet.idle side)] at completed
    exact ⟨connection, completed⟩
  by_contra unfinished
  obtain ⟨side, next, stepped⟩ := represents.linked.moves distinct fun both =>
    unfinished ⟨same _ both.1, same _ both.2⟩
  have idle := quiet.idle side
  have call := represents.call_of_idle idle
  simp only [Duplex.step] at stepped
  split at stepped
  next position =>
    rw [call] at position
    obtain ⟨_, _, other⟩ := quiet _ _ (step_of_moves (.write idle position))
    cases other
  next connection answered position =>
    rw [call] at position
    have drained := represents.drained quiet (.inl ⟨connection, answered, position⟩)
    split at stepped
    next message rest queued =>
      rw [queued] at drained
      obtain ⟨connection, returned⟩ := (represents.proper side).takes (by rw [drained]; simp)
      rw [position] at returned
      cases returned
    next => contradiction
  next position =>
    rw [call] at position
    obtain ⟨_, _, other⟩ := quiet _ _ (step_of_moves (.loopTest idle position))
    cases other
  next => contradiction

/-! ## Two sample clients -/

/-- The parties of the samples. -/
def samples : Side → Party := Duplex.samplePair Duplex.sampleNonces

/-- A `version` frame of a sample client after its magic. -/
def versionTail (checksum version : List UInt8) (index : UInt8) : List UInt8 :=
  [0x76, 0x65, 0x72, 0x73, 0x69, 0x6f, 0x6e, 0, 0, 0, 0, 0, 0x6b, 0, 0, 0] ++ checksum ++ version ++
    List.replicate 34 0 ++ [0xff, 0xff, 0, 0, 0, index, 0x20, 0x8d] ++ List.replicate 18 0 ++
    [0xff, 0xff, 0, 0, 0, 0, 0, 0, index, 0, 0, 0, 0, 0, 0, 0] ++
    [0x15, 0x2f, 0x62, 0x69, 0x74, 0x63, 0x6f, 0x69, 0x6e, 0x2d, 0x70, 0x65, 0x65, 0x72, 0x73,
      0x3a, 0x30, 0x2e, 0x32, 0x2e, 0x30, 0x2f] ++ List.replicate 5 0

/-- A frame without payload after its magic. -/
def emptyTail (command : List UInt8) : List UInt8 :=
  command ++ [0, 0, 0, 0, 0x5d, 0xf6, 0xe0, 0xe2]

/-- What the two sample clients say, and a ping, with the bytes after the magic. -/
def sampleTable : List (NetworkMessage × List UInt8) :=
  [((samples .left).greeting,
      versionTail [0xf4, 0xb3, 0x92, 0x56] [0x80, 0x11, 1, 0] 1),
    ((samples .right).greeting,
      versionTail [0x83, 0x85, 0xcd, 0x0e] [0x7d, 0x11, 1, 0] 2),
    (.sendAddrV2, emptyTail [0x73, 0x65, 0x6e, 0x64, 0x61, 0x64, 0x64, 0x72, 0x76, 0x32, 0, 0]),
    (.sendHeaders,
      emptyTail [0x73, 0x65, 0x6e, 0x64, 0x68, 0x65, 0x61, 0x64, 0x65, 0x72, 0x73, 0]),
    (.wtxidRelay, emptyTail [0x77, 0x74, 0x78, 0x69, 0x64, 0x72, 0x65, 0x6c, 0x61, 0x79, 0, 0]),
    (.verack, verackTail), (.ping 42, pingTail)]

/-- The mainnet encoding of these messages. -/
def sampleCodec : Codec where
  serialize raw :=
    raw.magic.bytes ++ ((sampleTable.find? fun row => row.1 == raw.payload).elim [] Prod.snd)
  deserialize bytes :=
    if sized : (bytes.take 4).length = 4 then
      match sampleTable.find? fun row => row.2 == bytes.drop 4 with
      | some row => .ok ⟨⟨bytes.take 4, sized⟩, row.1⟩
      | none => .error ⟨"invalid message"⟩
    else .error ⟨"unexpected end of file"⟩
  magic := mainnet

theorem laidOut_of_tail {magic : Magic} {tail : List UInt8} (whole : 20 ≤ tail.length)
    (small : tail.length < 2 ^ 32)
    (declared : (tail.drop 12).take 4 = le32 (tail.length - 20)) :
    LaidOut magic (magic.bytes ++ tail) := by
  refine ⟨tail.take 12, (tail.drop 16).take 4, tail.drop 20, ?_, ?_, ?_, ?_⟩
  · rw [List.length_take]
    omega
  · rw [List.length_take, List.length_drop]
    omega
  · rw [List.length_drop]
    omega
  · rw [List.length_drop, ← declared]
    simp only [List.append_assoc]
    congr 1
    have checksum : (tail.drop 16).take 4 ++ tail.drop 20 = tail.drop 16 := by
      have parts := List.take_append_drop 4 (tail.drop 16)
      rwa [List.drop_drop] at parts
    have length : (tail.drop 12).take 4 ++ tail.drop 16 = tail.drop 12 := by
      have parts := List.take_append_drop 4 (tail.drop 12)
      rwa [List.drop_drop] at parts
    rw [checksum, length, List.take_append_drop]

theorem sampleCodec_sound {message : NetworkMessage}
    (known : message ∈ sampleTable.map Prod.fst) : sampleCodec.Sound message := by
  have frames : ∀ message ∈ sampleTable.map Prod.fst,
      ∃ tail : List UInt8, sampleCodec.encode message = mainnet.bytes ++ tail ∧
        20 ≤ tail.length ∧ tail.length < 2 ^ 32 ∧
          (tail.drop 12).take 4 = le32 (tail.length - 20) := by
    intro message member
    refine ⟨_, rfl, ?_⟩
    revert message
    decide +kernel
  have inverses : (sampleTable.map Prod.fst).map
      (fun message => sampleCodec.deserialize (sampleCodec.encode message)) =
      (sampleTable.map Prod.fst).map fun message => .ok ⟨mainnet, message⟩ := rfl
  obtain ⟨tail, encoded, whole, small, declared⟩ := frames message known
  refine ⟨?_, List.map_inj_left.mp inverses message known⟩
  rw [encoded]
  exact laidOut_of_tail whole small declared

theorem sample_speaks : Speaks sampleCodec samples where
  greeting := by
    intro side
    apply sampleCodec_sound
    cases side with
    | left => exact List.mem_cons_self
    | right => exact List.mem_cons_of_mem _ List.mem_cons_self
  feature := by
    intro feature
    apply sampleCodec_sound
    cases feature <;> decide +kernel
  verack := sampleCodec_sound (by decide +kernel)

/-- A write of the handshake: ten bytes leave first, then the others. -/
def sampleWrite (side : Side) : List Action :=
  [.act side, .push side 9, .push side 200, .finish side]

/-- Both handshakes. The right end gets the header of the other's version
message in two parts. -/
def sampleHandshakes : List Action :=
  sampleWrite .left ++ sampleWrite .right ++
    [.pull .left 30, .pull .left 500, .pull .right 3, .pull .right 500, .pull .right 500] ++
    sampleWrite .left ++ sampleWrite .right ++ sampleWrite .left ++ sampleWrite .right ++
    [.pull .left 500, .pull .left 500, .pull .right 500, .pull .right 500]

/-- The left application sends a ping. -/
def samplePing : List Action :=
  [.post .left (.ping 42), .push .left 200, .finish .left, .pull .right 500, .pull .right 500]

/-- The executable form of `Completed`. -/
def completed (wire : Wire) (side : Side) : Bool :=
  match (wire side).call with
  | .returned _ (.ok ()) => true
  | _ => false

theorem completed_sound {side : Side} (passed : wire.completed side = true) :
    wire.Completed side := by
  unfold completed at passed
  split at passed
  next connection position => exact ⟨connection, position⟩
  next => cases passed

/-- The application writes messages of the table. -/
def sampleCarried (_ : Wire) : Action → Bool
  | .post _ message => decide (message ∈ sampleTable.map Prod.fst)
  | _ => true

theorem sampleCarried_sound (wire : Wire) (action : Action)
    (passed : sampleCarried wire action = true) : Carried sampleCodec wire action := by
  cases action with
  | post side message => exact sampleCodec_sound (of_decide_eq_true passed)
  | _ => trivial

/-! ## Agreement -/

/-- What two connections to each other hold. -/
structure Agree (parties : Side → Party) (left right : Connection) : Prop where
  version : ∀ connection ∈ [left, right],
    connection.state.effectiveProtocolVersion =
      .known (min (parties .left).configuration.localVersion
        (parties .right).configuration.localVersion)
  features : ∀ feature,
    (stateOf left.state feature = .enabled ↔ stateOf right.state feature = .enabled) ∧
      (stateOf left.state feature = .sentOnly ↔ stateOf right.state feature = .receivedOnly) ∧
      (stateOf left.state feature = .receivedOnly ↔ stateOf right.state feature = .sentOnly)
  leftPeer : left.peer.services = .known (parties .right).configuration.services ∧
    left.peer.version = .known (parties .right).configuration.localVersion
  rightPeer : right.peer.services = .known (parties .left).configuration.services ∧
    right.peer.version = .known (parties .left).configuration.localVersion

theorem agree_of_linked (linked : Duplex.Linked parties duplex) {left right : Connection}
    (leftDone : duplex.CompletedWith .left left) (rightDone : duplex.CompletedWith .right right) :
    Agree parties left right := by
  obtain ⟨-, leftVersion, leftServices, leftPeer, leftFeatures⟩ := linked.holds leftDone
  obtain ⟨-, rightVersion, rightServices, rightPeer, rightFeatures⟩ := linked.holds rightDone
  refine ⟨fun connection member => ?_, fun feature => ?_, ⟨leftServices, leftPeer⟩,
    ⟨rightServices, rightPeer⟩⟩
  · rcases List.mem_cons.mp member with rfl | other
    · exact leftVersion
    · rw [List.mem_singleton.mp other, rightVersion, Duplex.min_comm_version]
      rfl
  · rw [leftFeatures, rightFeatures]
    exact FeatureState.recording_mirror _ _

/-- Two handshakes with different nonces over byte streams, however the sockets
cut them: none fails; a wire on which nothing more can happen has two completed
handshakes; each end has read a beginning of the other's handshake and nothing
else; and two completed connections agree. -/
theorem wire_handshake_agreement (codec : Codec) (parties : Side → Party)
    (speaks : Speaks codec parties)
    (distinct : (parties .left).nonce ≠ (parties .right).nonce)
    {actions : List Action} {wire : Wire}
    (run : (machine codec parties).Run (Carried codec) (start parties) actions wire) :
    (∀ side connection error, (wire side).call ≠ .returned connection (.error error)) ∧
    (Quiet codec parties wire → wire.Completed .left ∧ wire.Completed .right) ∧
    (∀ side, (wire side).consumed <+: (wire side.other).written) ∧
    ∀ left right, wire.CompletedWith .left left → wire.CompletedWith .right right →
      Agree parties left right ∧
      (wire .left).consumed = (wire .right).written ∧
      (wire .right).consumed = (wire .left).written := by
  obtain ⟨duplex, -, represents⟩ := represents_run speaks run
  have linked := represents.linked
  refine ⟨fun side connection error returned => ?_, represents.completed distinct,
    fun side => ?_, fun left right leftDone rightDone => ?_⟩
  · have position := represents.call_of_returned returned
    have stage := linked.stage side
    rw [linked.returned position] at stage
    rcases stage.result_eq rfl with ok | ⟨-, loops⟩
    · cases ok
    · exact linked.not_loops (Duplex.distinct_sides distinct side) loops
  · obtain ⟨rest, read⟩ := linked.consumed_append side
    rw [(represents.ends side).consumed, (represents.ends side.other).written] at read
    exact ⟨rest, read.symm⟩
  · have leftCall : duplex.CompletedWith .left left := represents.call_of_returned leftDone
    have rightCall : duplex.CompletedWith .right right := represents.call_of_returned rightDone
    refine ⟨agree_of_linked linked leftCall rightCall, ?_, ?_⟩
    · rw [← (represents.ends .left).consumed, ← (represents.ends .right).written]
      exact (linked.holds leftCall).1
    · rw [← (represents.ends .right).consumed, ← (represents.ends .left).written]
      exact (linked.holds rightCall).1

theorem wire_handshake_agreement_sample :
    Speaks sampleCodec samples ∧ (samples .left).nonce ≠ (samples .right).nonce ∧
      ∃ wire left right, (machine sampleCodec samples).Run (Carried sampleCodec) (start samples)
          sampleHandshakes wire ∧
        wire.CompletedWith .left left ∧ wire.CompletedWith .right right ∧
        Agree samples left right := by
  refine ⟨sample_speaks, by decide, ?_⟩
  obtain ⟨wire, run, passed⟩ := Machine.exists_run_of_execute sampleCarried
    (fun wire => wire.completed .left && wire.completed .right) sampleCarried_sound
    (show ((machine sampleCodec samples).execute sampleCarried (start samples)
      sampleHandshakes).any _ = true by decide +kernel)
  rw [Bool.and_eq_true] at passed
  obtain ⟨left, leftDone⟩ := completed_sound passed.1
  obtain ⟨right, rightDone⟩ := completed_sound passed.2
  have agreement := (wire_handshake_agreement sampleCodec samples sample_speaks (by decide)
    run).2.2.2 left right leftDone rightDone
  exact ⟨wire, left, right, run, leftDone, rightDone, agreement.1⟩

/-! ## Delivery -/

/-- What the application of an end has received is a beginning of what the other
end's has written, in order and without a failed read; on a quiet wire it is
all of it. -/
theorem wire_messages_delivered (codec : Codec) (parties : Side → Party)
    (speaks : Speaks codec parties)
    (distinct : (parties .left).nonce ≠ (parties .right).nonce)
    {actions : List Action} {wire : Wire}
    (run : (machine codec parties).Run (Carried codec) (start parties) actions wire)
    (side : Side) :
    ∃ later, (wire side.other).posted.map .ok = (wire side).received ++ later ∧
      (Quiet codec parties wire → later = []) := by
  obtain ⟨duplex, -, represents⟩ := represents_run speaks run
  have linked := represents.linked
  have flow := linked.flow side.other
  rw [Side.other_other] at flow
  have whole : ∀ connection, (wire side).call = .returned connection (.ok ()) →
      (duplex side).incoming = (wire side.other).posted := by
    intro connection returned
    have read := (linked.holds (represents.call_of_returned returned)).1
    rw [read] at flow
    rw [← (represents.ends side.other).posted]
    exact List.append_cancel_left flow
  by_cases some : ∃ connection, (wire side).call = .returned connection (.ok ())
  · obtain ⟨connection, returned⟩ := some
    obtain ⟨taken, queued, received, incoming, -, -⟩ := represents.flow side
    refine ⟨queued.map .ok, ?_, fun quiet => ?_⟩
    · rw [← whole connection returned, incoming, received, List.map_append]
    · have drained := represents.drained quiet (.inr ⟨connection, returned⟩)
      rw [received, incoming, List.map_append] at drained
      exact List.self_eq_append_right.mp drained
  · have nothing : (wire side).received = [] := by
      by_contra taken
      exact some ((represents.proper side).takes taken)
    refine ⟨(wire side.other).posted.map .ok, by rw [nothing, List.nil_append], fun quiet => ?_⟩
    exfalso
    have completed := represents.completed distinct quiet
    cases side with
    | left => exact some completed.1
    | right => exact some completed.2

theorem wire_messages_delivered_sample :
    ∃ wire, (machine sampleCodec samples).Run (Carried sampleCodec) (start samples)
        (sampleHandshakes ++ samplePing) wire ∧
      (wire .right).received ≠ [] ∧
      ∃ later, (wire .left).posted.map .ok = (wire .right).received ++ later := by
  obtain ⟨wire, run, passed⟩ := Machine.exists_run_of_execute sampleCarried
    (fun wire => !(wire .right).received.isEmpty) sampleCarried_sound
    (show ((machine sampleCodec samples).execute sampleCarried (start samples)
      (sampleHandshakes ++ samplePing)).any _ = true by decide +kernel)
  obtain ⟨later, delivered, -⟩ := wire_messages_delivered sampleCodec samples sample_speaks
    (by decide) run .right
  exact ⟨wire, run, by simpa using passed, later, delivered⟩

/-! ## Refinement -/

/-- Every run of the wire is one of the message link, in which a write is done
when it starts: the same messages are written and read in the same order, and an
end that is not in the middle of a write is at the same point of its call. -/
theorem wire_refines_link (codec : Codec) (parties : Side → Party)
    (speaks : Speaks codec parties) {actions : List Action} {wire : Wire}
    (run : (machine codec parties).Run (Carried codec) (start parties) actions wire) :
    ∃ schedule duplex,
      (Duplex.machine parties).Run Machine.Always (Duplex.start parties) schedule duplex ∧
      ∀ side, (duplex side).consumed = (wire side).consumed ∧
        (duplex side).written = (wire side).written ∧
        (duplex side).posted = (wire side).posted ∧
        ((wire side).writing = none → (duplex side).call = (wire side).call) ∧
        (wire side).received <+: (duplex side).incoming.map .ok := by
  obtain ⟨duplex, ⟨schedule, reached⟩, represents⟩ := represents_run speaks run
  refine ⟨schedule, duplex, reached, fun side => ?_⟩
  have ends := represents.ends side
  obtain ⟨taken, queued, received, incoming, -, -⟩ := represents.flow side
  refine ⟨ends.consumed, ends.written, ends.posted, represents.call_of_idle, ?_⟩
  rw [received, incoming, List.map_append]
  exact List.prefix_append _ _

theorem wire_refines_link_sample :
    ∃ wire schedule duplex, (machine sampleCodec samples).Run (Carried sampleCodec)
        (start samples) sampleHandshakes wire ∧
      (Duplex.machine samples).Run Machine.Always (Duplex.start samples) schedule duplex ∧
      (wire .left).consumed.length = 3 ∧ (duplex .left).consumed = (wire .left).consumed := by
  obtain ⟨wire, run, passed⟩ := Machine.exists_run_of_execute sampleCarried
    (fun wire => decide ((wire .left).consumed.length = 3)) sampleCarried_sound
    (show ((machine sampleCodec samples).execute sampleCarried (start samples)
      sampleHandshakes).any _ = true by decide +kernel)
  obtain ⟨schedule, duplex, reached, matched⟩ :=
    wire_refines_link sampleCodec samples sample_speaks run
  exact ⟨wire, schedule, duplex, run, reached, of_decide_eq_true passed, (matched .left).1⟩

end Wire

end BitcoinPeers.Connection

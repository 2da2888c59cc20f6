import BitcoinPeers.Connection.Usage
import BitcoinPeers.Crawler.Exchange

/-!
Contract: `get_peers` over the bytes of a v1 connection.

Owns:
- `get_peers` on a connection, with reads that its timeout drops anywhere they
  wait, and that it does what it does on what each iteration meets;
- that the peers it returns are those in the messages of the stream it has taken,
  and the bytes it sends its request and the answers to their pings.

Does not own: how the connection was made, or what a task does with the peers.
-/

namespace BitcoinPeers.Crawler

open BitcoinPeers.Foundation BitcoinPeers.Transport BitcoinPeers.Connection

/-! ## An exchange on a socket -/

/-- One iteration on a socket: the time at its test, the underlying reads before
the timeout, whether the timeout strikes while the read waits for the state, and
the outcome of the write if the iteration makes one. -/
structure SocketTick where
  elapsed : Nat
  reads : List (Filling.Outcome IoError)
  dropped : Bool
  write : WriteOutcome

section Socket

variable (codec : Codec)

/-- What `timeout(_, self.read())` gives. -/
def readOutcome : Option (Except ConnectionError NetworkMessage) → ReadOutcome
  | none => .idle
  | some (.error error) => .failed error
  | some (.ok message) => .message message

/-- The message `get_peers` writes after a read. -/
def reaction : Option (Except ConnectionError NetworkMessage) → Option NetworkMessage
  | some (.ok (.ping nonce)) => some (.pong nonce)
  | _ => none

/-- One iteration on a connection: what it meets, and the connection after it. -/
def iterate (here : InUse) (tick : SocketTick) : Tick × InUse :=
  let read := here.read codec tick.reads tick.dropped
  match reaction read.1 with
  | none => (⟨tick.elapsed, readOutcome read.1, .ok ()⟩, read.2)
  | some message =>
      let written := read.2.write codec message tick.write
      (⟨tick.elapsed, readOutcome read.1, written.1⟩, written.2)

/-- What the iterations meet, one after the other. -/
def ticksOn (here : InUse) : List SocketTick → List Tick
  | [] => []
  | tick :: rest => (iterate codec here tick).1 :: ticksOn (iterate codec here tick).2 rest

/-- An exchange on a connection. -/
def exchangeOn (here : InUse) (getAddr : WriteOutcome) (ticks : List SocketTick) : Exchange :=
  let asked := here.write codec .getAddr getAddr
  ⟨asked.1, ticksOn codec asked.2 ticks⟩

variable (socketAddr : Address → Option SocketAddr) (peerTimeout : Nat)

/-- The loop of `get_peers` on a connection, with the connection as it leaves it. -/
def getPeersLoopOn (allPeers : List Peer) (written : List NetworkMessage) (here : InUse) :
    List SocketTick → (List NetworkMessage × Except ConnectionError (List Peer)) × InUse
  | [] => ((written, .ok allPeers), here)
  | tick :: rest =>
      if tick.elapsed < peerTimeout then
        let read := here.read codec tick.reads tick.dropped
        match read.1 with
        | some (.error error) => ((written, .error error), read.2)
        | none =>
            if allPeers ≠ [] then ((written, .ok allPeers), read.2)
            else getPeersLoopOn allPeers written read.2 rest
        | some (.ok (.addr addresses)) =>
            getPeersLoopOn (allPeers ++ addrPeers socketAddr addresses) written read.2 rest
        | some (.ok (.addrV2 addresses)) =>
            getPeersLoopOn (allPeers ++ addrV2Peers addresses) written read.2 rest
        | some (.ok (.ping nonce)) =>
            let answered := read.2.write codec (.pong nonce) tick.write
            match answered.1 with
            | .ok () => getPeersLoopOn allPeers (written ++ [.pong nonce]) answered.2 rest
            | .error error => ((written ++ [.pong nonce], .error error), answered.2)
        | some (.ok _) => getPeersLoopOn allPeers written read.2 rest
      else ((written, .ok allPeers), here)

/-- `get_peers` on a connection: the messages written, the result and the
connection after it. -/
def getPeersOn (here : InUse) (getAddr : WriteOutcome) (ticks : List SocketTick) :
    (List NetworkMessage × Except ConnectionError (List Peer)) × InUse :=
  let asked := here.write codec .getAddr getAddr
  match asked.1 with
  | .error error => (([.getAddr], .error error), asked.2)
  | .ok () => getPeersLoopOn codec socketAddr peerTimeout [] [.getAddr] asked.2 ticks

variable {codec socketAddr peerTimeout}

/-- One iteration, by what it meets. -/
theorem getPeersLoopOn_cons (peers : List Peer) (written : List NetworkMessage) (here : InUse)
    (tick : SocketTick) (rest : List SocketTick) :
    getPeersLoopOn codec socketAddr peerTimeout peers written here (tick :: rest) =
      if tick.elapsed < peerTimeout then
        if (iterate codec here tick).1.stops peers then
          ((written ++ (iterate codec here tick).1.read.pong,
            (iterate codec here tick).1.result peers), (iterate codec here tick).2)
        else getPeersLoopOn codec socketAddr peerTimeout
          (peers ++ (iterate codec here tick).1.read.peers socketAddr)
          (written ++ (iterate codec here tick).1.read.pong) (iterate codec here tick).2 rest
      else ((written, .ok peers), here) := by
  rw [getPeersLoopOn]
  by_cases early : tick.elapsed < peerTimeout
  · rw [if_pos early, if_pos early]
    unfold iterate
    generalize here.read codec tick.reads tick.dropped = read
    obtain ⟨answer, there⟩ := read
    cases answer with
    | none =>
        by_cases nothing : peers = []
        · simp [nothing, reaction, readOutcome, Tick.stops, Tick.failure, Tick.isIdle,
            ReadOutcome.pong, ReadOutcome.peers]
        · simp [nothing, reaction, readOutcome, Tick.stops, Tick.failure, Tick.isIdle,
            ReadOutcome.pong, Tick.result]
    | some outcome =>
        cases outcome with
        | error error =>
            simp [reaction, readOutcome, Tick.stops, Tick.failure, Tick.result, ReadOutcome.pong]
        | ok message =>
            cases message with
            | addr addresses =>
                simp [reaction, readOutcome, Tick.stops, Tick.failure, Tick.isIdle,
                  ReadOutcome.pong, addrPeers_eq]
            | addrV2 addresses =>
                simp [reaction, readOutcome, Tick.stops, Tick.failure, Tick.isIdle,
                  ReadOutcome.pong]
                rfl
            | ping nonce =>
                cases sent : (there.write codec (.pong nonce) tick.write).1 <;>
                  simp [sent, reaction, readOutcome, Tick.stops, Tick.failure, Tick.isIdle,
                    ReadOutcome.pong, ReadOutcome.peers, Tick.result]
            | _ =>
                simp [reaction, readOutcome, Tick.stops, Tick.failure, Tick.isIdle,
                  ReadOutcome.pong, ReadOutcome.peers]
  · rw [if_neg early, if_neg early]

theorem getPeersLoopOn_fst (peers : List Peer) (written : List NetworkMessage) (here : InUse)
    (ticks : List SocketTick) :
    (getPeersLoopOn codec socketAddr peerTimeout peers written here ticks).1 =
      getPeersLoop socketAddr peerTimeout peers written (ticksOn codec here ticks) := by
  induction ticks generalizing peers written here with
  | nil => rfl
  | cons tick rest inductionHypothesis =>
      have same : (iterate codec here tick).1.elapsed = tick.elapsed := by
        unfold iterate
        dsimp only
        cases reaction (here.read codec tick.reads tick.dropped).1 <;> rfl
      rw [getPeersLoopOn_cons, ticksOn, getPeersLoop_cons, same]
      by_cases early : tick.elapsed < peerTimeout
      · rw [if_pos early, if_pos early]
        cases stops : (iterate codec here tick).1.stops peers with
        | true => rw [if_pos rfl, if_pos rfl]
        | false =>
            rw [if_neg Bool.false_ne_true, if_neg Bool.false_ne_true]
            exact inductionHypothesis _ _ _
      · rw [if_neg early, if_neg early]

variable (codec socketAddr peerTimeout) in
/-- On a connection `get_peers` does what it does on what its iterations meet. -/
theorem getPeersOn_fst (here : InUse) (getAddr : WriteOutcome) (ticks : List SocketTick) :
    (getPeersOn codec socketAddr peerTimeout here getAddr ticks).1 =
      getPeers socketAddr (exchangeOn codec here getAddr ticks) peerTimeout := by
  unfold getPeersOn getPeers exchangeOn
  cases sent : (here.write codec .getAddr getAddr).1 with
  | error error => simp only [sent]
  | ok _ =>
      simp only [sent]
      exact getPeersLoopOn_fst _ _ _ ticks

end Socket

/-! ## What an exchange takes and answers -/

section Harvest

variable (socketAddr : Address → Option SocketAddr)

/-- The peers in a message. -/
def peersIn (message : NetworkMessage) : List Peer := (ReadOutcome.message message).peers socketAddr

/-- The answer to a message. -/
def pongIn (message : NetworkMessage) : List NetworkMessage := (ReadOutcome.message message).pong

theorem peersIn_locksState (message : NetworkMessage) (locks : locksState message = true) :
    peersIn socketAddr message = [] := by
  cases message with
  | addr addresses => cases locks
  | addrV2 addresses => cases locks
  | _ => rfl

theorem pongIn_locksState (message : NetworkMessage) (locks : locksState message = true) :
    pongIn message = [] := by
  cases message with
  | ping nonce => cases locks
  | _ => rfl

/-- Some iterations took messages with these peers and wrote these answers. -/
def Harvested (here there : InUse) (peers : List Peer) (answers : List NetworkMessage) : Prop :=
  ∃ taken, messagesIn there.given = messagesIn here.given ++ taken ∧
    peers = taken.flatMap (peersIn socketAddr) ∧ answers = taken.flatMap pongIn ∧
    there.written = here.written ++ answers.map fun message => (message, .ok ())

variable {socketAddr} {codec : Codec}

theorem harvested_refl (here : InUse) : Harvested socketAddr here here [] [] :=
  ⟨[], (List.append_nil _).symm, rfl, rfl, (List.append_nil _).symm⟩

theorem Harvested.trans {first second third : InUse} {peers more : List Peer}
    {answers later : List NetworkMessage}
    (earlier : Harvested socketAddr first second peers answers)
    (further : Harvested socketAddr second third more later) :
    Harvested socketAddr first third (peers ++ more) (answers ++ later) := by
  obtain ⟨taken, given, rfl, rfl, written⟩ := earlier
  obtain ⟨others, givenLater, rfl, rfl, writtenLater⟩ := further
  refine ⟨taken ++ others, ?_, ?_, ?_, ?_⟩
  · rw [givenLater, given, List.append_assoc]
  · rw [List.flatMap_append]
  · rw [List.flatMap_append]
  · rw [writtenLater, written, List.map_append, List.append_assoc]

variable (socketAddr) in
/-- One iteration without a failure. -/
theorem harvested_iterate (here : InUse) (tick : SocketTick)
    (smooth : (iterate codec here tick).1.failure = none) :
    Harvested socketAddr here (iterate codec here tick).2
      ((iterate codec here tick).1.read.peers socketAddr)
      (iterate codec here tick).1.read.pong := by
  obtain ⟨given, written⟩ := here.read_answer codec tick.reads tick.dropped
  unfold iterate at smooth ⊢
  generalize here.read codec tick.reads tick.dropped = read at given written smooth
  obtain ⟨answer, there⟩ := read
  cases answer with
  | none =>
      refine ⟨[], ?_, rfl, rfl, ?_⟩
      · exact (congrArg messagesIn given).trans (by simp)
      · exact written.trans (List.append_nil _).symm
  | some result =>
      cases result with
      | error error => cases smooth
      | ok message =>
          have taken : messagesIn there.given = messagesIn here.given ++ [message] :=
            (congrArg messagesIn given).trans (messagesIn_concat _ _)
          cases message with
          | ping nonce =>
              have answered : (there.write codec (.pong nonce) tick.write).1 = .ok () := by
                cases outcome : (there.write codec (.pong nonce) tick.write).1 with
                | ok _ => rfl
                | error error =>
                    simp only [reaction, readOutcome, Tick.failure, outcome] at smooth
                    cases smooth
              refine ⟨[.ping nonce], taken, rfl, rfl, ?_⟩
              show there.written ++ [(_, (there.write codec (.pong nonce) tick.write).1)] = _
              rw [answered, written]
              rfl
          | _ =>
              exact ⟨[_], taken, (List.append_nil _).symm, rfl,
                written.trans (List.append_nil _).symm⟩

theorem failure_of_stops {tick : Tick} {peers : List Peer} (goes : tick.stops peers = false) :
    tick.failure = none := by
  unfold Tick.stops at goes
  cases failure : tick.failure with
  | none => rfl
  | some error => simp [failure] at goes

/-- An iteration that ends an exchange with peers read nothing. -/
theorem idle_of_result {tick : Tick} {peers result : List Peer} (stops : tick.stops peers = true)
    (returned : tick.result peers = .ok result) :
    tick.failure = none ∧ tick.read = .idle ∧ result = peers := by
  unfold Tick.result at returned
  unfold Tick.stops Tick.isIdle at stops
  cases failure : tick.failure with
  | some error =>
      rw [failure] at returned
      cases returned
  | none =>
      rw [failure] at returned stops
      cases returned
      cases read : tick.read with
      | idle => exact ⟨rfl, rfl, rfl⟩
      | message message => simp [read] at stops
      | failed error => simp [read] at stops

/-- An exchange that returns peers has taken the messages that bring them. -/
theorem harvested_loop {peerTimeout : Nat} {ticks : List SocketTick} {here there : InUse}
    {peers result : List Peer} {written final : List NetworkMessage}
    (returned : getPeersLoopOn codec socketAddr peerTimeout peers written here ticks =
      ((final, .ok result), there)) :
    ∃ more answers, result = peers ++ more ∧ final = written ++ answers ∧
      Harvested socketAddr here there more answers := by
  induction ticks generalizing here peers written with
  | nil =>
      cases returned
      exact ⟨[], [], (List.append_nil _).symm, (List.append_nil _).symm, harvested_refl _⟩
  | cons tick rest inductionHypothesis =>
      rw [getPeersLoopOn_cons] at returned
      by_cases early : tick.elapsed < peerTimeout
      · rw [if_pos early] at returned
        cases stops : (iterate codec here tick).1.stops peers with
        | true =>
            rw [stops, if_pos rfl] at returned
            obtain ⟨⟨spoken, ended⟩, rfl⟩ := (Prod.mk.inj returned).imp_left Prod.mk.inj
            obtain ⟨smooth, idle, rfl⟩ := idle_of_result stops ended
            have last := harvested_iterate socketAddr here tick smooth
            rw [idle] at spoken last
            exact ⟨[], [], (List.append_nil _).symm, spoken.symm, last⟩
        | false =>
            rw [stops, if_neg Bool.false_ne_true] at returned
            obtain ⟨more, answers, rfl, rfl, later⟩ := inductionHypothesis returned
            refine ⟨_, _, List.append_assoc .., List.append_assoc .., ?_⟩
            exact (harvested_iterate socketAddr here tick (failure_of_stops stops)).trans later
      · rw [if_neg early] at returned
        cases returned
        exact ⟨[], [], (List.append_nil _).symm, (List.append_nil _).symm, harvested_refl _⟩

end Harvest

/-! ## The bytes of an exchange -/

section Bytes

variable {codec : Codec} {stream : List UInt8} {consumed : List NetworkMessage} {start here : InUse}

/-- Successful writes send the encodings of their messages. -/
theorem carries_all {messages : List NetworkMessage} {pieces : List (List UInt8)}
    (carried : List.Forall₂ (Carries codec) (messages.map fun message => (message, .ok ()))
      pieces) : pieces.flatten = codec.encodeAll messages := by
  induction messages generalizing pieces with
  | nil =>
      cases carried
      rfl
  | cons message rest inductionHypothesis =>
      cases carried with
      | cons first others =>
          rw [List.flatten_cons, first.2 rfl, inductionHypothesis others]
          rfl

/-- The connection keeps its account through an exchange. -/
theorem useAccount_iterate {uses : List Use} {count : Nat}
    (account : UseAccount codec stream consumed start uses count here) (tick : SocketTick) :
    ∃ later more, UseAccount codec stream consumed start later more
      (iterate codec here tick).2 := by
  obtain ⟨more, read⟩ := account.called (here.calls codec (.read tick.reads tick.dropped))
  unfold iterate
  cases reacted : reaction (here.read codec tick.reads tick.dropped).1 with
  | none =>
      simp only [reacted]
      exact ⟨_, more, read⟩
  | some message =>
      simp only [reacted]
      obtain ⟨again, wrote⟩ := read.called (InUse.calls codec _ (.write message tick.write))
      exact ⟨_, again, wrote⟩

theorem useAccount_loop (socketAddr : Address → Option SocketAddr) (peerTimeout : Nat)
    {uses : List Use} {count : Nat}
    (account : UseAccount codec stream consumed start uses count here) (peers : List Peer)
    (written : List NetworkMessage) (ticks : List SocketTick) :
    ∃ later more, UseAccount codec stream consumed start later more
      (getPeersLoopOn codec socketAddr peerTimeout peers written here ticks).2 := by
  induction ticks generalizing here uses count peers written with
  | nil => exact ⟨uses, count, account⟩
  | cons tick rest inductionHypothesis =>
      rw [getPeersLoopOn_cons]
      obtain ⟨later, more, next⟩ := useAccount_iterate account tick
      by_cases early : tick.elapsed < peerTimeout
      · rw [if_pos early]
        cases stops : (iterate codec here tick).1.stops peers with
        | true => exact ⟨later, more, next⟩
        | false => exact inductionHypothesis next _ _
      · rw [if_neg early]
        exact ⟨uses, count, account⟩

end Bytes

/-- `get_peers` on a connection made over a v1 transport, on any socket and with
reads that time out anywhere. When it returns peers, the connection it leaves has
taken some completions of the stream; the peers are those in the messages among
them after the handshake's, none lost and none twice; and it has sent `getaddr`
and the answers to the pings among them. -/
theorem get_peers_over_stream (codec : Codec) (party : Party) (stream : List UInt8)
    (turns : List Turn) (socketAddr : Address → Option SocketAddr) (peerTimeout : Nat)
    (getAddr : WriteOutcome) (ticks : List SocketTick) {connection : Connection}
    (completed : ((Course.v1 codec party stream).after (v1Medium codec) party.nonce
      turns).call.result = some (.ok connection))
    {written : List NetworkMessage} {peers : List Peer} {here : InUse}
    (returned : getPeersOn codec socketAddr peerTimeout ⟨((Course.v1 codec party stream).after
      (v1Medium codec) party.nonce turns).channel, connection, [], []⟩ getAddr ticks =
        ((written, .ok peers), here)) :
    let course := (Course.v1 codec party stream).after (v1Medium codec) party.nonce turns
    let start : InUse := ⟨course.channel, connection, [], []⟩
    getPeers socketAddr (exchangeOn codec start getAddr ticks) peerTimeout =
        (written, .ok peers) ∧
      ∃ count answers,
        here.channel.bytes = (left codec.deserialize codec.magic)^[count] stream ∧
        (messagesOf codec stream count).flatMap (peersIn socketAddr) =
          (consumed course.events).flatMap (peersIn socketAddr) ++ peers ∧
        (messagesOf codec stream count).flatMap pongIn =
          (consumed course.events).flatMap pongIn ++ answers ∧
        written = .getAddr :: answers ∧
        here.channel.sink = course.channel.sink ++ codec.encodeAll written := by
  intro course start
  change getPeersOn codec socketAddr peerTimeout start getAddr ticks = _ at returned
  have exchanged := getPeersOn_fst codec socketAddr peerTimeout start getAddr ticks
  rw [returned] at exchanged
  refine ⟨exchanged.symm, ?_⟩
  obtain ⟨before, asked⟩ := (useAccount_start codec party stream turns completed).called
    (start.calls codec (.write .getAddr getAddr))
  unfold getPeersOn at returned
  cases sent : (start.write codec .getAddr getAddr).1 with
  | error error =>
      simp only [sent] at returned
      cases returned
  | ok _ =>
      simp only [sent] at returned
      obtain ⟨more, answers, rfl, rfl, taken, given, rfl, rfl, wrote⟩ := harvested_loop returned
      obtain ⟨later, count, account⟩ := useAccount_loop socketAddr peerTimeout asked []
        [.getAddr] ticks
      have left : (getPeersLoopOn codec socketAddr peerTimeout [] [.getAddr]
          (start.call codec (.write .getAddr getAddr)) ticks).2 = here :=
        congrArg Prod.snd returned
      rw [left] at account
      have kept : messagesIn here.given = taken := given
      have spoken : here.written =
          (.getAddr :: taken.flatMap pongIn).map fun message => (message, .ok ()) := by
        refine wrote.trans ?_
        show [(_, (start.write codec .getAddr getAddr).1)] ++ _ = _
        rw [sent]
        rfl
      refine ⟨count, taken.flatMap pongIn, account.bytes, ?_, ?_, rfl, ?_⟩
      · rw [account.keeps.flatMap (peersIn_locksState socketAddr), List.flatMap_append, kept]
      · rw [account.keeps.flatMap pongIn_locksState, List.flatMap_append, kept]
      · obtain ⟨pieces, sink, carried⟩ := account.sent
        rw [spoken] at carried
        refine sink.trans ?_
        rw [carries_all carried]
        rfl

/-! ## A sample exchange -/

/-- The peer that the sample gossips. -/
def gossipEntry : AddrV2Message := ⟨0, .NETWORK, .ipv4 3, 8333⟩

/-- What the sample clients and an exchange between them say, with the bytes after
the magic. -/
def harvestTable : List (NetworkMessage × List UInt8) :=
  Wire.sampleTable ++
    [(.getAddr, Wire.emptyTail [0x67, 0x65, 0x74, 0x61, 0x64, 0x64, 0x72, 0, 0, 0, 0, 0]),
      (.pong 42,
        [0x70, 0x6f, 0x6e, 0x67, 0, 0, 0, 0, 0, 0, 0, 0, 8, 0, 0, 0, 0xf2, 0x71, 0x62, 0x78,
          42, 0, 0, 0, 0, 0, 0, 0]),
      (.addrV2 [gossipEntry],
        [0x61, 0x64, 0x64, 0x72, 0x76, 0x32, 0, 0, 0, 0, 0, 0, 14, 0, 0, 0,
          0xf6, 0x4d, 0x0e, 0x8f, 1, 0, 0, 0, 0, 1, 1, 4, 0, 0, 0, 3, 0x20, 0x8d])]

/-- The mainnet encoding of these messages. -/
def harvestCodec : Codec where
  serialize raw :=
    raw.magic.bytes ++ ((harvestTable.find? fun row => row.1 == raw.payload).elim [] Prod.snd)
  deserialize bytes :=
    if sized : (bytes.take 4).length = 4 then
      match harvestTable.find? fun row => row.2 == bytes.drop 4 with
      | some row => .ok ⟨⟨bytes.take 4, sized⟩, row.1⟩
      | none => .error ⟨"invalid message"⟩
    else .error ⟨"unexpected end of file"⟩
  magic := mainnet

def harvestStream : List UInt8 :=
  harvestCodec.encodeAll (samplePart ++ [.sendHeaders, .ping 42, .addrV2 [gossipEntry]])

def harvestTurns : List Turn :=
  List.replicate (enoughTurns harvestStream) (patientTurn harvestStream)

def harvestCourse : Course Channel :=
  (Course.v1 harvestCodec (Wire.samples .left) harvestStream).after (v1Medium harvestCodec)
    (Wire.samples .left).nonce harvestTurns

def harvestConnection : Connection :=
  (harvestCourse.call.result.bind Except.toOption).getD
    (.new (Wire.samples .left).peer (Wire.samples .left).configuration)

/-- The first read is dropped while it waits for the state, the second before a
byte, the third after ten; the fourth and the fifth return; the last is idle. -/
def harvestTicks : List SocketTick :=
  let patient : List (Filling.Outcome IoError) :=
    List.replicate (harvestStream.length + 1) (.ready 0)
  let accepted : WriteOutcome := ⟨.ok (), .ok ()⟩
  [⟨0, patient, true, accepted⟩, ⟨5, [], false, accepted⟩, ⟨10, [.ready 9], false, accepted⟩,
    ⟨12, patient, false, accepted⟩, ⟨12, patient, false, accepted⟩, ⟨13, [], false, accepted⟩]

theorem harvestCourse_result : harvestCourse.call.result = some (.ok harvestConnection) := by
  decide +kernel

/-- What `get_peers` gives and leaves on the connection. -/
def harvestEnd : (List NetworkMessage × Except ConnectionError (List Peer)) × InUse :=
  getPeersOn harvestCodec (fun _ => none) 20 ⟨harvestCourse.channel, harvestConnection, [], []⟩
    ⟨.ok (), .ok ()⟩ harvestTicks

theorem harvestEnd_returned :
    harvestEnd.1 = ([.getAddr, .pong 42], .ok [.withServices (.ipv4 3) 8333 .NETWORK]) := by
  decide +kernel

theorem get_peers_over_stream_sample :
    getPeers (fun _ => none) (exchangeOn harvestCodec
        ⟨harvestCourse.channel, harvestConnection, [], []⟩ ⟨.ok (), .ok ()⟩ harvestTicks) 20 =
      ([.getAddr, .pong 42], .ok [.withServices (.ipv4 3) 8333 .NETWORK]) ∧
    ∃ count, harvestEnd.2.channel.bytes =
        (left harvestCodec.deserialize harvestCodec.magic)^[count] harvestStream ∧
      (messagesOf harvestCodec harvestStream count).flatMap (peersIn fun _ => none) =
        (consumed harvestCourse.events).flatMap (peersIn fun _ => none) ++
          [.withServices (.ipv4 3) 8333 .NETWORK] := by
  have completed := harvestCourse_result
  have returned : harvestEnd =
      (([.getAddr, .pong 42], .ok [.withServices (.ipv4 3) 8333 .NETWORK]), harvestEnd.2) := by
    rw [← harvestEnd_returned]
  unfold harvestEnd harvestCourse at returned ⊢
  unfold harvestCourse at completed
  obtain ⟨exchanged, count, answers, bytes, gossip, -⟩ := get_peers_over_stream harvestCodec
    (Wire.samples .left) harvestStream harvestTurns _ 20 _ harvestTicks completed returned
  exact ⟨exchanged, count, bytes, gossip⟩

end BitcoinPeers.Crawler

import BitcoinPeers.Crawler.Connection
import BitcoinPeers.Crawler.Accounting

/-!
Contract: what one `get_peers` exchange returns and writes, and what a task
forwards of it.

Owns:
- the peers and the pong of one read, and the ticks that stop the exchange;
- the exact outcome of `get_peers` for any reads and writes;
- when a longer exchange forwards at least what a shorter one does.

Does not own: how many exchanges a crawl makes.
-/

namespace BitcoinPeers.Crawler

section Exchange

variable (socketAddr : Address → Option SocketAddr)

/-! ## One tick -/

/-- The address of a socket address. -/
def ipAddress : SocketAddr → AddrV2 × UInt16
  | .v4 ipv4 port => (.ipv4 ipv4, port)
  | .v6 ipv6 port => (.ipv6 ipv6, port)

/-- A gossiped peer: address, port and services, of unknown version. -/
def gossiped (endpoint : AddrV2 × UInt16) (services : ServiceFlags) : Peer :=
  ⟨endpoint.1, endpoint.2, .known services, .unknown⟩

/-- The peers a read brings. -/
def ReadOutcome.peers : ReadOutcome → List Peer
  | .message (.addr addresses) =>
      addresses.filterMap fun entry =>
        (socketAddr entry.2).map fun socket => gossiped (ipAddress socket) entry.2.services
  | .message (.addrV2 addresses) =>
      addresses.map fun entry => gossiped (entry.addr, entry.port) entry.services
  | _ => []

/-- The answer to a read. -/
def ReadOutcome.pong : ReadOutcome → List NetworkMessage
  | .message (.ping nonce) => [.pong nonce]
  | _ => []

/-- The error a tick ends in: of its read, or of the write of its pong. -/
def Tick.failure (tick : Tick) : Option ConnectionError :=
  match tick.read, tick.write with
  | .failed error, _ => some error
  | .message (.ping _), .error error => some error
  | _, _ => none

/-- The read timed out. -/
def Tick.isIdle (tick : Tick) : Bool :=
  match tick.read with
  | .idle => true
  | _ => false

/-- The tick ends an exchange that has collected `peers`. -/
def Tick.stops (peers : List Peer) (tick : Tick) : Bool :=
  tick.failure.isSome || (tick.isIdle && !peers.isEmpty)

/-! ## Many ticks -/

/-- The peers of all reads, in order. -/
def collected (ticks : List Tick) : List Peer :=
  ticks.flatMap fun tick => tick.read.peers socketAddr

/-- The answers to all reads, in order. -/
def pongs (ticks : List Tick) : List NetworkMessage := ticks.flatMap fun tick => tick.read.pong

/-- No tick ends the exchange. -/
def Continues (peers : List Peer) : List Tick → Prop
  | [] => True
  | tick :: rest =>
      tick.stops peers = false ∧ Continues (peers ++ tick.read.peers socketAddr) rest

/-- The result of an exchange that a tick ends. -/
def Tick.result (peers : List Peer) (tick : Tick) : Except ConnectionError (List Peer) :=
  match tick.failure with
  | some error => .error error
  | none => .ok peers

/-! ## The loop -/

variable {socketAddr}

theorem addrPeers_eq (addresses : List (UInt32 × Address)) :
    addrPeers socketAddr addresses =
      (ReadOutcome.message (.addr addresses)).peers socketAddr := by
  unfold addrPeers ReadOutcome.peers
  apply List.filterMap_congr
  intro entry _
  cases socketAddr entry.2 with
  | none => rfl
  | some socket => cases socket <;> rfl

/-- One iteration. -/
theorem getPeersLoop_cons (peerTimeout : Nat) (peers : List Peer)
    (written : List NetworkMessage) (tick : Tick) (rest : List Tick) :
    getPeersLoop socketAddr peerTimeout peers written (tick :: rest) =
      if tick.elapsed < peerTimeout then
        if tick.stops peers then (written ++ tick.read.pong, tick.result peers)
        else getPeersLoop socketAddr peerTimeout (peers ++ tick.read.peers socketAddr)
          (written ++ tick.read.pong) rest
      else (written, .ok peers) := by
  obtain ⟨elapsed, read, write⟩ := tick
  rw [getPeersLoop]
  split
  next early =>
    cases read with
    | failed error => simp [Tick.stops, Tick.failure, Tick.result, ReadOutcome.pong]
    | idle =>
        by_cases none : peers = []
        · simp [none, Tick.stops, Tick.failure, Tick.isIdle, ReadOutcome.pong, ReadOutcome.peers]
        · simp [none, Tick.stops, Tick.failure, Tick.isIdle, ReadOutcome.pong, Tick.result]
    | message message =>
        cases message with
        | addr addresses =>
            simp [Tick.stops, Tick.failure, Tick.isIdle, ReadOutcome.pong, addrPeers_eq]
        | addrV2 addresses =>
            simp [Tick.stops, Tick.failure, Tick.isIdle, ReadOutcome.pong]
            rfl
        | ping nonce =>
            cases write <;>
              simp [Tick.stops, Tick.failure, Tick.isIdle, ReadOutcome.pong, ReadOutcome.peers,
                Tick.result]
        | _ => simp [Tick.stops, Tick.failure, Tick.isIdle, ReadOutcome.pong, ReadOutcome.peers]
  next => rfl

/-- The ticks of an exchange before its deadline. -/
def timely (peerTimeout : Nat) (ticks : List Tick) : List Tick :=
  ticks.takeWhile fun tick => tick.elapsed < peerTimeout

/-- The loop runs through ticks that neither pass the deadline nor stop it. -/
theorem getPeersLoop_append {peerTimeout : Nat} {before : List Tick}
    (early : ∀ tick ∈ before, tick.elapsed < peerTimeout) :
    ∀ {peers : List Peer}, Continues socketAddr peers before →
      ∀ (written : List NetworkMessage) (rest : List Tick),
      getPeersLoop socketAddr peerTimeout peers written (before ++ rest) =
        getPeersLoop socketAddr peerTimeout (peers ++ collected socketAddr before)
          (written ++ pongs before) rest := by
  induction before with
  | nil =>
      intro peers _ written rest
      simp [collected, pongs]
  | cons tick before inductionHypothesis =>
      intro peers continues written rest
      have later := inductionHypothesis
        (fun other member => early other (List.mem_cons_of_mem _ member)) continues.2
      rw [List.cons_append, getPeersLoop_cons, if_pos (early tick List.mem_cons_self),
        continues.1, if_neg Bool.false_ne_true, later]
      simp [collected, pongs]

/-- The timely ticks divide at the first one that stops the exchange. -/
theorem exists_stop (peers : List Peer) (ticks : List Tick) :
    ∃ before rest, ticks = before ++ rest ∧ Continues socketAddr peers before ∧
      (rest = [] ∨ ∃ tick later, rest = tick :: later ∧
        tick.stops (peers ++ collected socketAddr before) = true) := by
  induction ticks generalizing peers with
  | nil => exact ⟨[], [], rfl, trivial, .inl rfl⟩
  | cons tick ticks inductionHypothesis =>
      cases stops : tick.stops peers with
      | true => exact ⟨[], tick :: ticks, rfl, trivial, .inr ⟨tick, ticks, rfl, by
          simpa [collected] using stops⟩⟩
      | false =>
          obtain ⟨before, rest, split, continues, ending⟩ :=
            inductionHypothesis (peers ++ tick.read.peers socketAddr)
          refine ⟨tick :: before, rest, by rw [split, List.cons_append], ⟨stops, continues⟩, ?_⟩
          simpa [collected] using ending

/-- Ticks after the deadline are not read. -/
theorem getPeersLoop_timely (peerTimeout : Nat) (peers : List Peer)
    (written : List NetworkMessage) (ticks : List Tick) :
    getPeersLoop socketAddr peerTimeout peers written ticks =
      getPeersLoop socketAddr peerTimeout peers written (timely peerTimeout ticks) := by
  induction ticks generalizing peers written with
  | nil => rfl
  | cons tick ticks inductionHypothesis =>
      by_cases early : tick.elapsed < peerTimeout
      · have kept : timely peerTimeout (tick :: ticks) = tick :: timely peerTimeout ticks := by
          simp [timely, early]
        rw [kept, getPeersLoop_cons, getPeersLoop_cons, inductionHypothesis]
      · have dropped : timely peerTimeout (tick :: ticks) = [] := by
          simp [timely, early]
        rw [dropped, getPeersLoop_cons, if_neg early]
        rfl

/-- `get_peers` writes `getaddr`, then answers each ping it reads. It ends with
the peers of every address message it read at the deadline or at the first idle
read after a peer, and with the error of the first read or write that fails. -/
theorem get_peers_exact (socketAddr : Address → Option SocketAddr) (exchange : Exchange)
    (peerTimeout : Nat) :
    (∀ error, exchange.getAddr = .error error →
        getPeers socketAddr exchange peerTimeout = ([.getAddr], .error error)) ∧
      (exchange.getAddr = .ok () →
        ∃ before rest, timely peerTimeout exchange.ticks = before ++ rest ∧
          Continues socketAddr [] before ∧
          ((rest = [] ∧ getPeers socketAddr exchange peerTimeout =
              (.getAddr :: pongs before, .ok (collected socketAddr before))) ∨
            ∃ tick later, rest = tick :: later ∧
              tick.stops (collected socketAddr before) = true ∧
              getPeers socketAddr exchange peerTimeout =
                (.getAddr :: pongs (before ++ [tick]),
                  tick.result (collected socketAddr before)))) := by
  constructor
  · intro error failed
    simp [getPeers, failed]
  · intro sent
    obtain ⟨before, rest, split, continues, ending⟩ :=
      @exists_stop socketAddr [] (timely peerTimeout exchange.ticks)
    have early : ∀ tick ∈ before ++ rest, tick.elapsed < peerTimeout := by
      intro tick member
      rw [← split] at member
      simpa using List.all_eq_true.mp List.all_takeWhile tick member
    have looped : getPeers socketAddr exchange peerTimeout =
        getPeersLoop socketAddr peerTimeout (collected socketAddr before)
          (.getAddr :: pongs before) rest := by
      simp only [getPeers, sent]
      rw [getPeersLoop_timely, split, getPeersLoop_append
        (fun tick member => early tick (List.mem_append_left _ member)) continues]
      rfl
    refine ⟨before, rest, split, continues, ?_⟩
    rcases ending with rfl | ⟨tick, later, rfl, stops⟩
    · exact .inl ⟨rfl, looped⟩
    · refine .inr ⟨tick, later, rfl, stops, ?_⟩
      rw [List.nil_append] at stops
      rw [looped, getPeersLoop_cons, if_pos (early tick (by simp)), if_pos stops]
      simp [pongs]

/-! ## What a task forwards -/

/-- The peers a task sends to the coordinator in its next steps, with the shared
state unchanged. -/
def Task.forwards (session : Session) (state : State) : Nat → Task → List Peer
  | 0, _ => []
  | steps + 1, task =>
      match task.advance session state with
      | none => []
      | some (phase, effect) =>
          effect.batches.flatten ++ Task.forwards session state steps ⟨task.peer, phase⟩

/-- The peers `process()` forwards after the `Listening` report for a connection
whose exchange meets `ticks`: it gets peers, filters and sends them. -/
def forwards (socketAddr : Address → Option SocketAddr) (session : Session) (state : State)
    (task : Task) (peer : Peer) (ticks : List Tick) : List Peer :=
  Task.forwards session state 3
    ⟨task.peer, .gettingPeers ⟨peer, fun timeout =>
      (getPeers socketAddr ⟨.ok (), ticks⟩ timeout).2⟩⟩

variable (socketAddr) in
/-- The exchange reads or writes an error before it ends otherwise. -/
def Interrupted (peerTimeout : Nat) (peers : List Peer) : List Tick → Prop
  | [] => False
  | tick :: rest =>
      tick.elapsed < peerTimeout ∧
        (tick.failure.isSome ∨
          tick.stops peers = false ∧
            Interrupted peerTimeout (peers ++ tick.read.peers socketAddr) rest)

section Forwards

variable {session : Session} {state : State} {peerTimeout : Nat}

@[simp] theorem forwards_finished (steps : Nat) (peer : Peer) (result : TaskResult) :
    Task.forwards session state steps ⟨peer, .finished result⟩ = [] := by
  cases steps <;> rfl

@[simp] theorem forwards_panicked (steps : Nat) (peer : Peer) :
    Task.forwards session state steps ⟨peer, .panicked⟩ = [] := by
  cases steps <;> rfl

@[simp] theorem forwards_finishing (steps : Nat) (peer : Peer) (result : TaskResult) :
    Task.forwards session state steps ⟨peer, .finishing result⟩ = [] := by
  cases steps with
  | zero => rfl
  | succ steps =>
      simp only [Task.forwards, Task.advance]
      cases state.donePort session.config <;> simp [Effect.batches]

theorem forwards_filtering (live : state.coordinator.isExited = false) (steps : Nat)
    (peer : Peer) (discovered : List Peer) :
    Task.forwards session state (steps + 2) ⟨peer, .filtering discovered⟩ =
      filterTested state.testedPeers discovered := by
  rw [Task.forwards]
  cases kept : filterTested state.testedPeers discovered with
  | nil => simp [Task.advance, kept, Effect.batches]
  | cons first rest => simp [Task.advance, Task.forwards, kept, live, Effect.batches]

theorem forwards_of_ok (live : state.coordinator.isExited = false) (task : Task) (peer : Peer)
    {ticks : List Tick} {discovered : List Peer}
    (answer : (getPeers socketAddr ⟨.ok (), ticks⟩ session.config.peerTimeout).2 =
      .ok discovered) :
    forwards socketAddr session state task peer ticks =
      filterTested state.testedPeers discovered := by
  rw [forwards, Task.forwards]
  cases discovered with
  | nil => simp [Task.advance, answer, filterTested, Effect.batches]
  | cons first rest =>
      simp only [Task.advance, answer, Effect.batches, List.flatten_nil, List.nil_append]
      exact forwards_filtering live 0 task.peer (first :: rest)

theorem forwards_of_error (task : Task) (peer : Peer) {ticks : List Tick}
    {error : ConnectionError}
    (answer : (getPeers socketAddr ⟨.ok (), ticks⟩ session.config.peerTimeout).2 =
      .error error) :
    forwards socketAddr session state task peer ticks = [] := by
  rw [forwards, Task.forwards]
  simp [Task.advance, answer, Effect.batches]

/-- The loop ends in an error exactly when it is interrupted, and otherwise with
at least the peers it started from. -/
theorem getPeersLoop_cases (peerTimeout : Nat) (peers : List Peer) (written : List NetworkMessage)
    (ticks : List Tick) :
    (Interrupted socketAddr peerTimeout peers ticks ∧
        ∃ error, (getPeersLoop socketAddr peerTimeout peers written ticks).2 = .error error) ∨
      (¬ Interrupted socketAddr peerTimeout peers ticks ∧
        ∃ more, (getPeersLoop socketAddr peerTimeout peers written ticks).2 =
          .ok (peers ++ more)) := by
  induction ticks generalizing peers written with
  | nil => exact .inr ⟨not_false, [], by simp [getPeersLoop]⟩
  | cons tick ticks inductionHypothesis =>
      rw [getPeersLoop_cons, Interrupted]
      by_cases early : tick.elapsed < peerTimeout
      · rw [if_pos early]
        cases failure : tick.failure with
        | some error =>
            have stops : tick.stops peers = true := by simp [Tick.stops, failure]
            rw [if_pos stops]
            exact .inl ⟨⟨early, .inl rfl⟩, error, by simp [Tick.result, failure]⟩
        | none =>
            cases stops : tick.stops peers with
            | true => exact .inr ⟨by simp, [], by simp [Tick.result, failure]⟩
            | false =>
                rcases inductionHypothesis (peers ++ tick.read.peers socketAddr)
                  (written ++ tick.read.pong) with ⟨interrupted, failed⟩ | ⟨calm, more, ended⟩
                · exact .inl ⟨⟨early, .inr ⟨rfl, interrupted⟩⟩, failed⟩
                · refine .inr ⟨by simp [calm], tick.read.peers socketAddr ++ more, ?_⟩
                  rw [if_neg Bool.false_ne_true, ended, List.append_assoc]
      · rw [if_neg early]
        exact .inr ⟨by simp [early], [], by simp⟩

/-- Idle reads up to the deadline end the loop with what it has. -/
theorem getPeersLoop_quiet {peers : List Peer} {ticks : List Tick}
    (quiet : ∀ tick ∈ timely peerTimeout ticks, tick.isIdle = true)
    (written : List NetworkMessage) :
    (getPeersLoop socketAddr peerTimeout peers written ticks).2 = .ok peers := by
  rw [getPeersLoop_timely]
  generalize timely peerTimeout ticks = ticks at quiet
  induction ticks with
  | nil => rfl
  | cons tick ticks inductionHypothesis =>
      obtain ⟨elapsed, read, write⟩ := tick
      have idle := quiet _ List.mem_cons_self
      have later := inductionHypothesis fun other member =>
        quiet other (List.mem_cons_of_mem _ member)
      cases read with
      | idle =>
          rw [getPeersLoop]
          split
          next =>
            simp only
            split
            next => rfl
            next => exact later
          next => rfl
      | message message => cases idle
      | failed error => cases idle

/-- A longer exchange forwards all that a shorter one does exactly when no read
or write error interrupts it, or when all it had received was already tested. -/
theorem longer_exchange_forwards_iff (session : Session) (state : State) (task : Task)
    (peer : Peer) (socketAddr : Address → Option SocketAddr) {heard ending more : List Tick}
    (live : state.coordinator.isExited = false)
    (early : ∀ tick ∈ heard, tick.elapsed < session.config.peerTimeout)
    (continues : Continues socketAddr [] heard)
    (quiet : ∀ tick ∈ timely session.config.peerTimeout ending, tick.isIdle = true) :
    (∀ found ∈ forwards socketAddr session state task peer (heard ++ ending),
        found ∈ forwards socketAddr session state task peer (heard ++ more)) ↔
      ¬ Interrupted socketAddr session.config.peerTimeout (collected socketAddr heard) more ∨
        ∀ found ∈ collected socketAddr heard, found ∈ state.testedPeers := by
  have looped : ∀ rest, (getPeers socketAddr ⟨.ok (), heard ++ rest⟩
      session.config.peerTimeout).2 = (getPeersLoop socketAddr session.config.peerTimeout
        (collected socketAddr heard) (.getAddr :: pongs heard) rest).2 := by
    intro rest
    simp only [getPeers]
    rw [getPeersLoop_append early continues]
    rfl
  have short := forwards_of_ok live task peer ((looped ending).trans (getPeersLoop_quiet quiet _))
  rw [short]
  rcases getPeersLoop_cases session.config.peerTimeout (collected socketAddr heard)
    (.getAddr :: pongs heard) more with ⟨interrupted, error, failed⟩ | ⟨calm, extra, ended⟩
  · rw [forwards_of_error task peer ((looped more).trans failed)]
    simp [filterTested, interrupted]
  · rw [forwards_of_ok live task peer ((looped more).trans ended)]
    refine iff_of_true (fun found member => ?_) (.inl calm)
    rw [filterTested, List.filter_append]
    exact List.mem_append_left _ member

end Forwards

end Exchange

/-! ## An exchange that fails after an address message -/

/-- One `addrv2` message with the peer `pairPeer 2`. -/
def addressTick : Tick where
  elapsed := 0
  read := .message (.addrV2 [{
    addr := .ipv4 2, port := 8333, services := ServiceFlags.NETWORK, time := 0 }])
  write := .ok ()

def idleTick : Tick := ⟨1, .idle, .ok ()⟩

/-- The remote node closes the connection. -/
def closedTick : Tick :=
  ⟨1, .failed (.transportFailed (.io ⟨.unexpectedEof, "early eof"⟩)), .ok ()⟩

def firstTask : Task := ⟨pairPeer 1, .connecting⟩

/-- An address, a ping and an idle read. -/
def pingExchange : Exchange :=
  ⟨.ok (), [addressTick, ⟨1, .message (.ping 7), .ok ()⟩, idleTick]⟩

theorem get_peers_exact_ping :
    getPeers (fun _ => none) pingExchange 20 = ([.getAddr, .pong 7], .ok [pairPeer 2]) ∧
      ∃ before rest, timely 20 pingExchange.ticks = before ++ rest ∧
        Continues (fun _ => none) [] before := by
  obtain ⟨before, rest, split, continues, -⟩ :=
    (get_peers_exact (fun _ => none) pingExchange 20).2 rfl
  exact ⟨rfl, before, rest, split, continues⟩

theorem longer_exchange_forwards_iff_ping :
    forwards (fun _ => none) pairSession pairStart firstTask (pairPeer 1)
        ([addressTick] ++ [idleTick]) = [pairPeer 2] ∧
      ∀ found ∈ forwards (fun _ => none) pairSession pairStart firstTask (pairPeer 1)
          ([addressTick] ++ [idleTick]),
        found ∈ forwards (fun _ => none) pairSession pairStart firstTask (pairPeer 1)
          ([addressTick] ++ [⟨1, .message (.ping 7), .ok ()⟩, idleTick]) := by
  refine ⟨by decide, ?_⟩
  apply (longer_exchange_forwards_iff pairSession pairStart firstTask (pairPeer 1)
    (fun _ => none) (by decide) (by decide)
    (show Continues _ [] [addressTick] from ⟨rfl, trivial⟩) (by decide)).mpr
  left
  simp [Interrupted, Tick.failure, idleTick]

/-- The address is forwarded when the connection falls silent and lost when it
is closed. -/
theorem failed_read_loses_addresses :
    pairPeer 2 ∉ pairStart.testedPeers ∧
      forwards (fun _ => none) pairSession pairStart firstTask (pairPeer 1)
          ([addressTick] ++ [idleTick]) = [pairPeer 2] ∧
      forwards (fun _ => none) pairSession pairStart firstTask (pairPeer 1)
          ([addressTick] ++ [closedTick]) = [] := by
  decide

end BitcoinPeers.Crawler

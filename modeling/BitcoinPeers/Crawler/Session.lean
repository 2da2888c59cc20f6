import BitcoinPeers.Error
import BitcoinPeers.Peer
import BitcoinPeers.Foundation.Machine

/-!
Contract: `crawler/src/session.rs`, the coordinator of a crawl together with
the `process()` tasks it spawns, as one machine.

Owns:
- the program points of `coordinate()` and of `process()`;
- the three channels (discovery, completion, crawl) and the shared set of
  tested peers;
- one step function whose actions are the scheduler's choices.

Each poll of a channel is one step, so tasks may run between the two polls of
the biased `select!`. A task reads the tested set under the read lock in one
step. The periodic status log reads state only and is left out.

Does not own: how a connection is made or how `get_peers` works; both are the
answers of a `Connector`. Every such call is taken to return, so a peer that
blocks a write of `get_peers` for ever is outside the model.
-/

namespace BitcoinPeers.Crawler

open BitcoinPeers.Foundation

/-- Messages sent to the caller of a crawl. -/
inductive CrawlerMessage where
  | listening (peer : Peer)
  | nonListening (peer : Peer)
deriving DecidableEq, Repr

/-- The peer a message is about. -/
def CrawlerMessage.peer : CrawlerMessage → Peer
  | .listening peer => peer
  | .nonListening peer => peer

/-- Result of processing one peer. -/
inductive TaskResult where
  | foundPeers
  | noPeersFound
  | connectionFailed
  | channelClosed
deriving DecidableEq, Repr

structure SessionConfig where
  maxConcurrentTasks : Nat
  /-- The timeout given to every connector and connection call, in nanoseconds. -/
  peerTimeout : Nat

/-- An established connection: the peer record after the handshake, and the
answer of `get_peers` under a timeout. -/
structure PeerConnection where
  peer : Peer
  getPeers : (peerTimeout : Nat) → Except ConnectionError (List Peer)

/-- The outcome of `timeout(peer_timeout, connector.connect(&peer))`. -/
inductive ConnectOutcome where
  | connected (connection : PeerConnection)
  | refused (error : ConnectionError)
  | timedOut

/-- A network as the session sees it. A peer value is connected to at most once
in a crawl, so one answer for each value describes every network whose calls
return. -/
abbrev Connector := (peerTimeout : Nat) → Peer → ConnectOutcome

structure Session where
  config : SessionConfig
  connector : Connector

/-- The capacity `Crawler::crawl` gives the channel to the caller. -/
def CRAWL_CHANNEL_CAPACITY : Nat := 1000

/-! ## Program points -/

/-- The await points of a spawned task: `process()` up to `finishing`, then the
send of its `TaskResult`. -/
inductive TaskPhase where
  | connecting
  | sendingNonListening
  | sendingListening (connection : PeerConnection)
  | gettingPeers (connection : PeerConnection)
  | filtering (discoveredPeers : List Peer)
  | sendingPeers (filteredPeers : List Peer)
  | finishing (result : TaskResult)
  | finished (result : TaskResult)
  /-- The `expect` on the completion send failed. -/
  | panicked

/-- The task still has to send its `TaskResult`. -/
def TaskPhase.running : TaskPhase → Bool
  | .finished _ => false
  | .panicked => false
  | _ => true

structure Task where
  peer : Peer
  phase : TaskPhase

/-- How `coordinate()` ended. A completion channel of capacity zero panics
before the first loop iteration. -/
inductive Exit where
  | exhausted
  | hungUp
  | panicked
deriving DecidableEq, Repr

/-- The program points of `coordinate()`. -/
inductive Coordinator where
  /-- Top of the loop, at the hang-up check. -/
  | top
  /-- In `select!`, about to poll `peer_discovery_rx`. -/
  | pollDiscovery
  /-- In `select!`, the discovery poll was pending, about to poll `task_done_rx`. -/
  | pollDone
  /-- In `for peer in peers`, with the entries still to look at. -/
  | batch (rest : List Peer)
  /-- `peer` was inserted in the tested set and waits for capacity. -/
  | capacity (peer : Peer) (rest : List Peer)
  | exited (reason : Exit)
deriving DecidableEq, Repr

/-- The entries of the current batch at and after the coordinator's position. -/
def Coordinator.remaining : Coordinator → List Peer
  | .batch rest => rest
  | .capacity peer rest => peer :: rest
  | _ => []

/-- The peer that is in the tested set but not spawned yet. -/
def Coordinator.held : Coordinator → List Peer
  | .capacity peer _ => [peer]
  | _ => []

/-- `coordinate()` has returned and dropped both of its receivers. -/
def Coordinator.isExited : Coordinator → Bool
  | .exited _ => true
  | _ => false

/-! ## State -/

/-- The whole session. `sent`, `taken` and `log` are histories: no step reads
them. -/
structure State where
  coordinator : Coordinator
  activeTasks : Nat
  testedPeers : Finset Peer
  /-- Spawned tasks, in spawn order. -/
  tasks : List Task
  peerDiscovery : List (List Peer)
  taskDone : List TaskResult
  crawl : List CrawlerMessage
  /-- The caller still holds the receiver. -/
  crawlOpen : Bool
  /-- Every batch ever sent on the discovery channel. -/
  sent : List (List Peer)
  /-- The batches the coordinator has received. -/
  taken : List (List Peer)
  /-- Every message that entered the crawl channel, with the task that sent it. -/
  log : List (Nat × CrawlerMessage)

namespace State

/-- The peers a task has been spawned for, in order. -/
def spawned (state : State) : List Peer := state.tasks.map Task.peer

/-- The entries of the received batches before the coordinator's position. -/
def examined (state : State) : List Peer :=
  state.taken.flatten.take
    (state.taken.flatten.length - state.coordinator.remaining.length)

/-- Tasks whose `TaskResult` has not been sent. -/
def runningTasks (state : State) : Nat := state.tasks.countP fun task => task.phase.running

end State

/-- `coordinate(seed)` up to its loop: the completion channel is created, then
the seed is sent as the first batch. -/
def coordinate (config : SessionConfig) (seed : Peer) : State :=
  let channels : State :=
    { coordinator := .exited .panicked, activeTasks := 0, testedPeers := ∅, tasks := [],
      peerDiscovery := [], taskDone := [], crawl := [], crawlOpen := true,
      sent := [], taken := [], log := [] }
  if config.maxConcurrentTasks = 0 then channels
  else { channels with coordinator := .top, peerDiscovery := [[seed]], sent := [[seed]] }

/-! ## Steps of the coordinator -/

def stepCoordinator (config : SessionConfig) (state : State) : Option State :=
  match state.coordinator with
  | .top =>
      if state.crawlOpen then some { state with coordinator := .pollDiscovery }
      else some { state with coordinator := .exited .hungUp }
  | .pollDiscovery =>
      match state.peerDiscovery with
      | peers :: rest =>
          some { state with
            coordinator := .batch peers, peerDiscovery := rest, taken := state.taken ++ [peers] }
      | [] => some { state with coordinator := .pollDone }
  | .pollDone =>
      match state.taskDone with
      | _ :: rest =>
          some { state with
            coordinator := if state.activeTasks - 1 = 0 then .exited .exhausted else .top
            activeTasks := state.activeTasks - 1, taskDone := rest }
      | [] => some { state with coordinator := .pollDiscovery }
  | .batch [] => some { state with coordinator := .top }
  | .batch (peer :: rest) =>
      if peer ∈ state.testedPeers then some { state with coordinator := .batch rest }
      else some { state with
        coordinator := .capacity peer rest, testedPeers := insert peer state.testedPeers }
  | .capacity peer rest =>
      if config.maxConcurrentTasks ≤ state.activeTasks then
        match state.taskDone with
        | _ :: done => some { state with activeTasks := state.activeTasks - 1, taskDone := done }
        | [] => none
      else some { state with
        coordinator := .batch rest, activeTasks := state.activeTasks + 1
        tasks := state.tasks ++ [⟨peer, .connecting⟩] }
  | .exited _ => none

/-! ## Steps of a task -/

/-- What a bounded `send` meets. -/
inductive Port where
  | closed
  | full
  | ready
deriving DecidableEq, Repr

/-- What a `send` on the crawl channel meets. Any of the tasks that wait may take
a free slot, so every order in which they are served is a schedule. -/
def State.crawlPort (state : State) : Port :=
  if state.crawlOpen then
    if state.crawl.length < CRAWL_CHANNEL_CAPACITY then .ready else .full
  else .closed

/-- What a `send` on the completion channel meets. -/
def State.donePort (config : SessionConfig) (state : State) : Port :=
  if state.coordinator.isExited then .closed
  else if state.taskDone.length < config.maxConcurrentTasks then .ready else .full

/-- What a task step puts on a channel. -/
inductive Effect where
  | internal
  | report (message : CrawlerMessage)
  | discover (peers : List Peer)
  | deliver (result : TaskResult)

/-- Drop the peers that are already tested. -/
def filterTested (tested : Finset Peer) (discoveredPeers : List Peer) : List Peer :=
  discoveredPeers.filter fun peer => peer ∉ tested

/-- One step of a spawned task: the next program point and its effect. `none`
means that the task waits. -/
def Task.advance (session : Session) (state : State) (task : Task) :
    Option (TaskPhase × Effect) :=
  match task.phase with
  | .connecting =>
      match session.connector session.config.peerTimeout task.peer with
      | .connected connection => some (.sendingListening connection, .internal)
      | .refused _ => some (.sendingNonListening, .internal)
      | .timedOut => some (.sendingNonListening, .internal)
  | .sendingNonListening =>
      match state.crawlPort with
      | .closed => some (.finishing .channelClosed, .internal)
      | .full => none
      | .ready => some (.finishing .connectionFailed, .report (.nonListening task.peer))
  | .sendingListening connection =>
      match state.crawlPort with
      | .closed => some (.finishing .channelClosed, .internal)
      | .full => none
      | .ready => some (.gettingPeers connection, .report (.listening connection.peer))
  | .gettingPeers connection =>
      match connection.getPeers session.config.peerTimeout with
      | .ok [] => some (.finishing .noPeersFound, .internal)
      | .ok (peer :: rest) => some (.filtering (peer :: rest), .internal)
      | .error _ => some (.finishing .noPeersFound, .internal)
  | .filtering discoveredPeers =>
      match filterTested state.testedPeers discoveredPeers with
      | [] => some (.finishing .noPeersFound, .internal)
      | peer :: rest => some (.sendingPeers (peer :: rest), .internal)
  | .sendingPeers filteredPeers =>
      if state.coordinator.isExited then some (.finishing .channelClosed, .internal)
      else some (.finishing .foundPeers, .discover filteredPeers)
  | .finishing result =>
      match state.donePort session.config with
      | .closed => some (.panicked, .internal)
      | .full => none
      | .ready => some (.finished result, .deliver result)
  | .finished _ => none
  | .panicked => none

/-- Put the effect of task `index` on its channel. -/
def State.emit (state : State) (index : Nat) : Effect → State
  | .internal => state
  | .report message =>
      { state with crawl := state.crawl ++ [message], log := state.log ++ [(index, message)] }
  | .discover peers =>
      { state with peerDiscovery := state.peerDiscovery ++ [peers], sent := state.sent ++ [peers] }
  | .deliver result => { state with taskDone := state.taskDone ++ [result] }

/-- Move task `index` to its next program point. -/
def State.setTask (state : State) (index : Nat) (task : Task) : State :=
  { state with tasks := state.tasks.set index task }

def stepTask (session : Session) (state : State) (index : Nat) : Option State :=
  match state.tasks[index]? with
  | none => none
  | some task =>
      match task.advance session state with
      | none => none
      | some (phase, effect) =>
          some ((state.setTask index ⟨task.peer, phase⟩).emit index effect)

/-! ## The machine -/

/-- The scheduler's choice: the coordinator, a task, or the caller. -/
inductive Action where
  | coordinator
  | task (index : Nat)
  /-- The caller takes a message from the crawl channel. -/
  | receive
  /-- The caller drops the receiver. -/
  | hangUp
deriving DecidableEq, Repr

def step (session : Session) (state : State) : Action → Option State
  | .coordinator => stepCoordinator session.config state
  | .task index => stepTask session state index
  | .receive =>
      match state.crawlOpen, state.crawl with
      | true, _ :: rest => some { state with crawl := rest }
      | _, _ => none
  | .hangUp =>
      if state.crawlOpen then some { state with crawlOpen := false, crawl := [] } else none

/-- The session as a machine. -/
def machine (session : Session) : Machine State Action := ⟨step session⟩

/-- The step leaves the receiver with the caller. -/
def KeepsReceiver (_ : State) (action : Action) : Prop := action ≠ .hangUp

end BitcoinPeers.Crawler

import AtomicCommit.Cluster.Command
import AtomicCommit.Cluster.Network

/-!
# Running commands

How a cluster carries out commands. `Cluster.run` gives the answer to a command, the events it has
caused in their order, and the cluster after it.
-/

namespace AtomicCommit.Cluster

/-- A command being carried out. -/
abbrev Carried := ExceptT Failure Run

/-- Changes the network. -/
def changeNetwork (change : Network → Network) : Carried Answer := do
  modify fun cluster => { cluster with network := change cluster.network }
  return .nothing

/-- Takes the result of a computation, with its error as a failure. -/
def orFail {ε α : Type} (wrap : ε → Failure) (run : Run (Except ε α)) : Carried α := do
  match ← liftM run with
  | .ok a => return a
  | .error failure => throw (wrap failure)

/-- Takes the result of a coordinator, with its error or its panic as a failure. -/
def orPanic {ε α : Type} (wrap : ε → Failure) (run : Run (Option (Except ε α))) : Carried α := do
  match ← liftM run with
  | some result => orFail wrap (pure result)
  | none => throw .panicked

/-! ## Logs -/

/-- The log of a name, and its place. -/
def journal (log : String) : Carried (Nat × Journal) := do
  match (← get).journals.find? log with
  | some found => return found
  | none => throw (.unknown log)

/-- Changes the log of a name. -/
def changeJournal (log : String) (change : Journal → Journal) : Carried Journal := do
  let (place, found) ← journal log
  let changed := change found
  modify fun cluster =>
    { cluster with journals := cluster.journals.modify place fun _ => changed }
  return changed

/-- Uses the log of a name. -/
def useJournal {α : Type} (log : String) (use : Journal → Except LogError α × Journal) :
    Carried α := do
  let (place, _) ← journal log
  orFail .log (withJournal place use)

/-- Changes the bytes of a file; the length it has then. -/
def changeBytes (log : String) (change : List UInt8 → List UInt8) : Carried Answer := do
  let changed ← changeJournal log fun journal =>
    { journal with store := journal.store.setBytes (change journal.store.bytes) }
  return .count changed.store.bytes.length

/-- The answer to a log that has been opened. -/
def openedAnswer (store : Store) (length : Nat) : Answer :=
  match store with
  | .memory _ => .nothing
  | _ => .opened length

/-- Makes a log. -/
def createLog (log : String) (medium : Medium) : Carried Answer := do
  let (result, store) := Store.create medium
  modify fun cluster => { cluster with journals := cluster.journals.add log { name := log, store } }
  let length ← orFail .log (pure result)
  return openedAnswer store length

/-- Opens the file of a log again. -/
def reopenLog (log : String) : Carried Answer := do
  let (_, found) ← journal log
  let (result, store) := found.store.reopen
  discard (changeJournal log fun journal => { journal with store })
  let length ← orFail .log (pure result)
  return openedAnswer store length

/-! ## Processes -/

/-- Starts a participant. -/
def startParticipant (node : ParticipantNode) (register : Bool) : Carried Answer := do
  modify fun cluster =>
    let place := cluster.participants.members.size
    let network := cluster.network
    { cluster with
      participants := cluster.participants.add node.id node
      network :=
        if register then
          { network with participants := network.participants.insert node.id place }
        else network }
  return .process (some node.id)

/-- Starts a coordinator. -/
def startCoordinator (node : CoordinatorNode) (register : Bool) : Carried Answer := do
  let id := node.process.id
  modify fun cluster =>
    let place := cluster.coordinators.members.size
    let network := cluster.network
    { cluster with
      coordinators := cluster.coordinators.add id node
      network :=
        if register then { network with coordinators := network.coordinators.insert id place }
        else network }
  return .coordinator node.process

/-- The participant of a name, and its place. -/
def participant (id : ProcessId) : Carried (Nat × ParticipantNode) := do
  match (← get).participants.find? id with
  | some found => return found
  | none => throw (.unknown id.name)

/-- The coordinator of a name, and its place. -/
def coordinator (id : ProcessId) : Carried (Nat × CoordinatorNode) := do
  match (← get).coordinators.find? id with
  | some found => return found
  | none => throw (.unknown id.name)

/-- Has the participant of a name take a step. -/
def stepParticipant {α : Type} (id : ProcessId) (step : ProcessId → Participant.Step α) :
    Carried α := do
  let (place, node) ← participant id
  orFail .commit (runParticipant askCoordinator place node (step node.id))

/-- Has the coordinator of a name take a step. -/
def stepCoordinator {α : Type} (id : ProcessId) (step : Coordinator → Coordinator.Step α) :
    Carried α := do
  let (place, node) ← coordinator id
  orPanic .commit (runCoordinator place node (step node.process))

/-- The timeout of a transaction for which none is given. -/
def defaultTimeout : Duration := { nanos := nanosPerSecond * 5 }

/-! ## Commands -/

/-- Carries out a command. -/
def carryOut : Command → Carried Answer
  | .setClock time => do
    modify fun cluster => { cluster with clock := time }
    return .nothing
  | .startParticipant id log register plain failures => do
    let (place, _) ← journal log
    startParticipant { id, journal := place, plain, failures } register
  | .startCoordinator id log options register => do
    let (place, _) ← journal log
    let config ← orFail .state (pure (Config.build options))
    startCoordinator { process := { id, config }, journal := place } register
  | .stopCoordinator id => do
    let known := ((← get).coordinators.find? id).isSome
    modify fun cluster => { cluster with coordinators := cluster.coordinators.remove id }
    return .flag known
  | .begin id participants operations timeout =>
    .outcome <$> stepCoordinator id fun self =>
      self.begin (SortedSet.ofList participants) operations (timeout.getD defaultTimeout)
  | .queryState id transaction =>
    .transaction <$> stepCoordinator id fun self => self.queryState transaction
  | .queryDecision id transaction =>
    .decision <$> stepCoordinator id fun self => self.queryDecision transaction
  | .forgetTransaction id transaction =>
    .flag <$> stepCoordinator id fun _ => Coordinator.forget transaction
  | .recoverCoordinator id => do
    let (place, node) ← coordinator id
    .coordinatorRecovery <$> orPanic .recovery (runCoordinator place node node.process.recover)
  | .prepare id message =>
    (.vote ∘ some) <$> stepParticipant id fun self => Participant.handlePrepare self message
  | .decision id message => do
    stepParticipant id fun self =>
      Participant.handleDecision self message.transaction message.decision
    return .nothing
  | .queryVote id transaction =>
    .vote <$> stepParticipant id fun self => Participant.queryVote self transaction
  | .participantState id transaction =>
    .state <$> stepParticipant id fun self => Participant.state? self transaction
  | .record id transaction =>
    .record <$> stepParticipant id fun self => Participant.record? self transaction
  | .blocked id => do
    let (_, node) ← participant id
    return .transactions (Participant.blocked node.memory)
  | .forgetRecord id transaction =>
    .flag <$> stepParticipant id fun self => Participant.forget self transaction
  | .recoverParticipant id => do
    let (place, node) ← participant id
    .participantRecovery <$>
      orFail .recovery (runParticipant askCoordinator place node (Participant.recover node.id))
  | .send target call => do
    match call with
    | .prepare message => (.vote ∘ some) <$> orFail .transport (deliver target (.prepare message))
    | .decision message => do
      orFail .transport (deliver target (.decision message))
      return .nothing
    | .queryVote transaction =>
      .vote <$> orFail .transport (deliver target (.queryVote transaction))
    | .queryDecision transaction =>
      .decision <$> orFail .transport (deliver target (.queryDecision transaction))
  | .partition process => changeNetwork fun network =>
    { network with partitioned := SortedSet.insert network.partitioned process }
  | .heal process => changeNetwork fun network =>
    { network with partitioned := network.partitioned.erase process }
  | .delay _ => return .nothing
  | .registerParticipant id => do
    let (place, _) ← participant id
    changeNetwork fun network =>
      { network with participants := network.participants.insert id place }
  | .registerCoordinator id => do
    let (place, _) ← coordinator id
    changeNetwork fun network =>
      { network with coordinators := network.coordinators.insert id place }
  | .deregisterParticipant id => do
    let known := (← get).network.participants.contains id
    discard (changeNetwork fun network =>
      { network with participants := network.participants.erase id })
    return .process (if known then some id else none)
  | .deregisterCoordinator id => changeNetwork fun network =>
    { network with coordinators := network.coordinators.erase id }
  | .order participants => changeNetwork fun network => { network with order := participants }
  | .script target kind directives => changeNetwork fun network =>
    let script := (network.scripts.get? target).getD [] ++ directives.map (kind, ·)
    { network with scripts := network.scripts.insert target script }
  | .release delivering => .count <$> liftM (release delivering callsPerErrand)
  | .createLog log medium => createLog log medium
  | .reopen log => reopenLog log
  | .append log entry => do
    useJournal log fun journal => journal.append entry
    return .nothing
  | .load log transaction =>
    .entries <$> useJournal log fun journal => journal.load transaction
  | .scan log actor => .entries <$> useJournal log fun journal => journal.scan actor
  | .entries log => .entries <$> useJournal log fun journal => (journal.store.entries, journal)
  | .size log => do
    let entries ← useJournal log fun journal => (journal.store.entries, journal)
    return .size entries.length
  | .bytes log => do
    let (_, found) ← journal log
    return .bytes found.store.bytes
  | .setBytes log bytes => changeBytes log fun _ => bytes
  | .cut log count => changeBytes log fun bytes => bytes.take (bytes.length - count)
  | .flip log offset mask => changeBytes log fun bytes => bytes.modify offset fun b => b ^^^ mask
  | .appendFaults log faults => do
    discard (changeJournal log fun journal =>
      { journal with appendFaults := journal.appendFaults ++ faults })
    return .nothing
  | .loadFaults log fails => do
    discard (changeJournal log fun journal =>
      { journal with loadFaults := journal.loadFaults ++ fails })
    return .nothing
  | .scanFaults log fails => do
    discard (changeJournal log fun journal =>
      { journal with scanFaults := journal.scanFaults ++ fails })
    return .nothing
  | .limit log bytes => do
    discard (changeJournal log fun journal => { journal with limit := bytes })
    return .nothing

end Cluster

/-- What a command has led to. -/
structure Cluster.Outcome where
  /-- The answer, or why there is none. -/
  answer : Except Cluster.Failure Cluster.Answer
  /-- What processes have called out to, in order. -/
  events : List Cluster.Event

/-- Runs a command. -/
def Cluster.run (cluster : Cluster) (command : Cluster.Command) : Cluster.Outcome × Cluster :=
  let (answer, after) := (Cluster.carryOut command).run.run { cluster with events := [] }
  ({ answer, events := after.events.reverse }, { after with events := [] })

end AtomicCommit

import AtomicCommit.Cluster.Basic

/-!
# Hosts and resource managers of a cluster

How a cluster answers what its processes ask of their hosts and of their resource managers.
-/

namespace AtomicCommit.Cluster

/-- A computation in a cluster. -/
abbrev Run := StateM Cluster

/-- Reports an event. -/
def report (event : Event) : Run Unit :=
  modify fun cluster => { cluster with events := event :: cluster.events }

/-- Uses the log at a place. -/
def withJournal {α : Type} (place : Nat) (use : Journal → Except LogError α × Journal) :
    Run (Except LogError α) := do
  let cluster ← get
  match cluster.journals.at? place with
  | none => return .error Store.closedError
  | some journal =>
    let (result, journal) := use journal
    set { cluster with journals := cluster.journals.modify place fun _ => journal }
    return result

/-- Appends an entry to the log at a place, and reports it. -/
def appendReported (place : Nat) (entry : Entry) : Run (Except LogError Unit) := do
  let result ← withJournal place fun journal => journal.append entry
  let name := (((← get).journals.at? place).map Journal.name).getD ""
  let failure :=
    match result with
    | .ok () => none
    | .error failure => some failure
  report (.append name entry failure)
  return result

/-- Answers what a process with its log at a place asks of its host. -/
def answerHost (place : Nat) : (q : Host.Request) → Run (Host.Answer q)
  | .now => return (← get).clock
  | .append entry => appendReported place entry
  | .load transaction => withJournal place fun journal => journal.load transaction
  | .scan actor => withJournal place fun journal => journal.scan actor

/-- Uses the resource manager of a participant. -/
def withResources {α : Type} (place : Nat) (use : Failures → Except Fault α × Failures) :
    Run (Except Fault α) := do
  let cluster ← get
  let (result, failures) := use (((cluster.participants.at? place).map (·.failures)).getD {})
  let participants := cluster.participants.modify place fun node => { node with failures }
  set { cluster with participants }
  return result

/-- Completes what a participant has prepared, and reports it. -/
def complete (place : Nat) (id : ProcessId) (what : Completion) (payload : PreparedPayload)
    (use : Failures → Except Fault Unit × Failures) : Run (Except Fault Unit) := do
  let result ← withResources place use
  report (.complete id what payload result)
  return result

/-- Answers what the participant at a place asks; `ask` calls coordinators for it. -/
def answerParticipant
    (ask : ProcessId → TransactionId → Run (Except TransportError (Option Decision)))
    (place : Nat) (node : ParticipantNode) :
    (q : Participant.interface.Request) → Run (Participant.interface.Answer q)
  | .inl q => answerHost node.journal q
  | .inr (.canCommit operations) => do
    let result ← withResources place fun f => f.checkOperations operations
    report (.check node.id operations result)
    return result
  | .inr (.prepare operations) => do
    let result ← withResources place fun f => f.prepareOperations operations
    report (.prepare node.id result)
    return result
  | .inr (.commit payload) => complete place node.id .commit payload Failures.commitPrepared
  | .inr (.abort payload) => complete place node.id .abort payload Failures.abortPrepared
  | .inr (.restore payload) =>
    if node.plain then return .ok ()
    else complete place node.id .restore payload Failures.restorePrepared
  | .inr (.askDecision coordinator transaction) => ask coordinator transaction

/-- Runs an action of the participant at a place. -/
def runParticipant {ε α : Type}
    (ask : ProcessId → TransactionId → Run (Except TransportError (Option Decision)))
    (place : Nat) (node : ParticipantNode)
    (action : Action Participant.interface Participant.Memory ε α) : Run (Except ε α) := do
  let (result, memory) ←
    action.interpret (answerParticipant ask place node) node.memory
  modify fun cluster =>
    { cluster with
      participants := cluster.participants.modify place fun node => { node with memory } }
  return result

/-- Asks no coordinator. -/
def askNobody (coordinator : ProcessId) (_ : TransactionId) :
    Run (Except TransportError (Option Decision)) :=
  return .error (.unreachable coordinator)

/-! ## Coordinators -/

/-- Keeps what the coordinator at a place has in memory. -/
def keepMemory (place : Nat) (memory : Coordinator.Memory) : Run Unit :=
  modify fun cluster =>
    { cluster with
      coordinators := cluster.coordinators.modify place fun node => { node with memory } }

/-- Answers a coordinator that calls nobody; there is no answer to a panic. Calls take no time here,
so the clock that times them stands still. -/
def answerAlone (place : Nat) :
    (q : Coordinator.interface.Request) → OptionT Run (Coordinator.interface.Answer q)
  | .inl q => liftM (answerHost place q)
  | .inr .freshId => do
    let cluster ← getThe Cluster
    let (id, ids) := cluster.ids.draw
    set { cluster with ids }
    return id
  | .inr (.requestVotes _ _ _) => return .epoch
  | .inr (.awaitVote _ _) => return none
  | .inr (.sendDecision _ _ _) => return .epoch
  | .inr (.awaitAcknowledgement _ _) => return none
  | .inr (.pause _) => return ()
  | .inr .panic => failure

/-- Answers the coordinator at a place as `answer` does, and keeps what it has in memory when it
asks. -/
def answerKeeping {m : Type → Type} [Monad m] [MonadLiftT Run m] (place : Nat)
    (answer : (q : Coordinator.interface.Request) → m (Coordinator.interface.Answer q))
    (q : Coordinator.interface.Request × Coordinator.Memory) :
    m (Coordinator.interface.Answer q.1 × Coordinator.Memory) := do
  liftM (keepMemory place q.2)
  return (← answer q.1, q.2)

/-- Runs an action of the coordinator at a place that calls nobody; it has no result if it
panics. -/
def runAlone {ε α : Type} (place : Nat) (node : CoordinatorNode)
    (action : Action Coordinator.interface Coordinator.Memory ε α) : Run (Option (Except ε α)) :=
  OptionT.run do
    let answer := answerKeeping place (answerAlone node.journal)
    let (result, memory) ← (action.program node.memory).interpret answer
    liftM (keepMemory place memory)
    return result

end AtomicCommit.Cluster

import AtomicCommit.Cluster.Host

/-!
# Networks of a cluster

How calls get to processes. `deliver` hands a call over as it is; `transmit` does what the script
of the called process orders for it. The calls of a coordinator to many participants are made one
after another: those for votes all before the first vote is read, those for acknowledgements each
when the reply is waited for.

## Main definitions

* `deliver`, `transmit`: one call.
* `carry`, `release`: a conversation, and conversations that were held.
* `runCoordinator`: an action of a coordinator that calls its participants.
-/

namespace AtomicCommit.Cluster

/-- The result of a call to a process, whose errors come back as text. -/
def remoteResult {α : Type} (target : ProcessId) (result : Except CommitError α) :
    Except TransportError α :=
  result.mapError fun failure => .remote target failure.message

/-- Has a participant take a step, if it can be reached. -/
def atParticipant {α : Type} (target : ProcessId) (step : ProcessId → Participant.Step α) :
    Run (Except TransportError α) := do
  let cluster ← get
  if cluster.network.partitioned.contains target then return .error (.unreachable target)
  else
    match cluster.network.participants.get? target with
    | none => return .error (.unreachable target)
    | some place =>
      match cluster.participants.at? place with
      | none => return .error (.unreachable target)
      | some node =>
        return remoteResult target (← runParticipant askNobody place node (step node.id))

/-- Has a coordinator take a step, if it still runs and can be reached. -/
def atCoordinator {α : Type} (target : ProcessId) (step : Coordinator → Coordinator.Step α) :
    Run (Except TransportError α) := do
  let cluster ← get
  if cluster.network.partitioned.contains target then return .error (.unreachable target)
  else
    match cluster.coordinators.find? target with
    | none => return .error (.unreachable target)
    | some (place, node) =>
      if cluster.network.coordinators.get? target = some place then
        match ← runAlone place node (step node.process) with
        | some result => return remoteResult target result
        | none => return .error (.unreachable target)
      else return .error (.unreachable target)

/-- Hands a call over to the process it is addressed to. -/
def deliver (target : ProcessId) : (call : Call) → Run (Except TransportError call.Reply)
  | .prepare message => atParticipant target fun self => Participant.handlePrepare self message
  | .decision message => atParticipant target fun self =>
    Participant.handleDecision self message.transaction message.decision
  | .queryVote transaction => atParticipant target fun self =>
    Participant.queryVote self transaction
  | .queryDecision transaction => atCoordinator target fun self => self.queryDecision transaction

/-- What is ordered for a call. -/
def directive (target : ProcessId) (kind : CallKind) : Run Directive := do
  let cluster ← get
  let (found, rest) := Script.next kind ((cluster.network.scripts.get? target).getD [])
  set { cluster with
    network := { cluster.network with scripts := cluster.network.scripts.insert target rest } }
  return found

/-- Makes a call as its script orders, and reports it. There is no reply to a call that is held. -/
def transmit (request : Addressed) : Run (Option (Except TransportError request.call.Reply)) := do
  let reply : Option (Except TransportError request.call.Reply) ←
    match ← directive request.target request.call.kind with
    | .deliver => some <$> deliver request.target request.call
    | .drop => pure (some (.error (.unreachable request.target)))
    | .lose => do
      discard (deliver request.target request.call)
      pure (some (.error (.unreachable request.target)))
    | .remote => pure (some (.error (.remote request.target "scripted")))
    | .internal => pure (some (.error (.internal "scripted")))
    | .hold => pure none
    | .made reply => pure (some (reply.reply request.call))
  report (.call request reply false)
  return reply

/-- Carries a conversation on until it ends or a call of it is held. -/
def carry {α : Type} : Program Transport α → Run (Option α)
  | .done result => return some result
  | .ask request next => do
    match ← transmit request with
    | some reply => carry (next reply)
    | none =>
      let errand : Errand := ⟨request, fun reply => discard (next reply)⟩
      modify fun cluster =>
        { cluster with
          network := { cluster.network with held := cluster.network.held ++ [errand] } }
      return none

/-- Lets the conversations held go, each with its call delivered late or else dropped, in as many
rounds as conversations have calls; the number of calls let go. -/
def release (delivering : Bool) : (rounds : Nat) → Run Nat
  | 0 => return 0
  | rounds + 1 => do
    let errands := (← get).network.held
    modify fun cluster => { cluster with network := { cluster.network with held := [] } }
    if delivering then
      for errand in errands do
        let reply ← deliver errand.request.target errand.request.call
        report (.call errand.request (some reply) true)
        discard (carry (errand.next reply))
    return errands.length + (← release delivering rounds)

/-- The greatest number of calls in a conversation. -/
def callsPerErrand : Nat := 2

/-! ## Calls to many participants -/

/-- The addressees of calls: first those in `order`, then the others. -/
def arrange {α : Type} (order : List ProcessId) (calls : List (ProcessId × α)) :
    List (ProcessId × α) :=
  order.eraseDups.filterMap (fun p => calls.find? fun c => c.1 = p) ++
    calls.filter fun c => !order.contains c.1

/-- The calls of a coordinator that are out. -/
structure Mailbox where
  /-- The votes that have come, and why others have not. -/
  votes : List (ProcessId × Except TransportError Vote) := []
  /-- The decision calls still to be made. -/
  decisions : List (ProcessId × DecisionMessage) := []

/-- Collects the votes of participants. -/
def collect (resuming : Bool) :
    List (ProcessId × PrepareMessage) → Run (List (ProcessId × Except TransportError Vote))
  | [] => return []
  | (p, message) :: rest => do
    let vote ← carry (Transport.ballot resuming p message).run
    let votes ← collect resuming rest
    return (vote.map (p, ·)).toList ++ votes

/-- The first reply from a participant whose reply is awaited, and the replies after it. -/
def nextReply {α : Type} (awaited : List ProcessId) :
    List (ProcessId × Except TransportError α) →
      Option (Reply awaited α × List (ProcessId × Except TransportError α))
  | [] => none
  | (p, result) :: rest =>
    if h : p ∈ awaited then some (⟨p, h, result⟩, rest) else nextReply awaited rest

/-- Makes decision calls until one is not held: its reply, and the calls after it. -/
def nextAcknowledgement (awaited : List ProcessId) :
    List (ProcessId × DecisionMessage) →
      Run (Option (Reply awaited Unit) × List (ProcessId × DecisionMessage))
  | [] => return (none, [])
  | (p, message) :: rest => do
    match ← carry (Transport.call p (.decision message)).run with
    | none => nextAcknowledgement awaited rest
    | some result =>
      if h : p ∈ awaited then return (some ⟨p, h, result⟩, rest)
      else nextAcknowledgement awaited rest

/-- Makes all decision calls. -/
def sendAll : List (ProcessId × DecisionMessage) → Run Unit
  | [] => return ()
  | (p, message) :: rest => do
    discard (carry (Transport.call p (.decision message)).run)
    sendAll rest

/-- Answers the coordinator with its log at a place. The calls that are out when it panics are
made. -/
def answerCoordinator (place : Nat) :
    (q : Coordinator.interface.Request) →
      StateT Mailbox (OptionT Run) (Coordinator.interface.Answer q)
  | .inr (.requestVotes resuming messages time) => do
    let order := (← getThe Cluster).network.order
    let votes ← (collect resuming (arrange order messages) : Run _)
    modify fun mailbox => { mailbox with votes }
    answerAlone place (.inr (.requestVotes resuming messages time))
  | .inr (.awaitVote _ awaited) => do
    match nextReply awaited (← get).votes with
    | none => return none
    | some (reply, votes) =>
      modify fun mailbox => { mailbox with votes }
      return some reply
  | .inr (.sendDecision message participants time) => do
    let order := (← getThe Cluster).network.order
    modify fun mailbox =>
      { mailbox with decisions := arrange order (participants.map fun p => (p, message)) }
    answerAlone place (.inr (.sendDecision message participants time))
  | .inr (.awaitAcknowledgement _ awaited) => do
    let (reply, decisions) ← (nextAcknowledgement awaited (← get).decisions : Run _)
    modify fun mailbox => { mailbox with decisions }
    return reply
  | .inr .panic => do
    (sendAll (← get).decisions : Run Unit)
    answerAlone place (.inr .panic)
  | q => answerAlone place q

/-- Runs an action of the coordinator at a place; it has no result if it panics. -/
def runCoordinator {ε α : Type} (place : Nat) (node : CoordinatorNode)
    (action : Action Coordinator.interface Coordinator.Memory ε α) : Run (Option (Except ε α)) :=
  OptionT.run do
    let answer := answerKeeping place (answerCoordinator node.journal)
    let ((result, memory), _) ← ((action.program node.memory).interpret answer).run {}
    liftM (keepMemory place memory)
    return result

/-- Asks a coordinator for its decision as the script orders. A call that is held has no reply. -/
def askCoordinator (coordinator : ProcessId) (transaction : TransactionId) :
    Run (Except TransportError (Option Decision)) := do
  match ← transmit ⟨coordinator, .queryDecision transaction⟩ with
  | some reply => return reply
  | none => return .error (.unreachable coordinator)

end AtomicCommit.Cluster

import AtomicCommit.Participant.Surroundings
import AtomicCommit.Transaction.Record

/-!
# Participants

A participant votes on transactions and applies decisions. Each step is logged before it counts:
the vote before it is given, and a decision, once the resource manager has carried it out, before
it is acknowledged. Records in memory only spare a look into the log.

## Main definitions

* `Participant.handlePrepare`, `Participant.handleDecision`: the two messages of the protocol.
* `Participant.queryVote`, `Participant.state?`, `Participant.record?`, `Participant.blocked`.
* `Participant.forget`, `Participant.restore`: what leaves memory and what comes back.
-/

namespace AtomicCommit.Participant

/-- The records that a participant has in memory. -/
abbrev Memory := SortedMap TransactionId Record

/-- A step of a participant. -/
abbrev Step := Action interface Memory CommitError

/-- What is known of a transaction: the record in memory, or what the log replays to. -/
def record? (self : ProcessId) (transaction : TransactionId) : Step (Option Record) := do
  match (← get).get? transaction with
  | some record => return some record
  | none =>
    let entries ← (Host.history self transaction).mapError .log
    Action.ofExcept .invalidState (Record.replay entries)

/-- The vote that has been logged, if any. -/
def queryVote (self : ProcessId) (transaction : TransactionId) : Step (Option Vote) := do
  return (← record? self transaction).bind Record.vote

/-- The state of a transaction, if anything is known of it. -/
def state? (self : ProcessId) (transaction : TransactionId) : Step (Option ParticipantState) := do
  return (← record? self transaction).map Record.state

/-- The entry that takes a record to `next`. -/
def entry (self : ProcessId) (record : Record) (next : ParticipantState) (payload : Payload)
    (time : Timestamp) : Entry :=
  { transaction := record.transaction
    actor := self
    previous := some record.state.toState
    state := next.toState
    payload
    time }

/-- Takes a record to `next`, and keeps it in memory: the entry is logged, then applied. -/
def advance (self : ProcessId) (record : Record) (next : ParticipantState) (payload : Payload) :
    Step Unit := do
  let entry := entry self record next payload (← Host.now)
  (Host.append entry).mapError .log
  let record ← Action.ofExcept .invalidState (record.apply entry)
  modify fun memory => memory.insert record.transaction record

/-- Has the resource manager check and prepare operations: the payload, or none if it refuses or
fails. -/
def tryPrepare (operations : List Operation) : Step (Option PreparedPayload) := do
  match ← canCommit operations with
  | .ok true =>
    match ← prepare operations with
    | .ok payload => return some payload
    | .error _ => return none
  | _ => return none

/-- Votes on a transaction. If anything is known of it the vote is the one given before, or `no` for
a transaction aborted before it was voted on; else the resource manager is asked. What it has
prepared is released again if the vote can not be logged. -/
def handlePrepare (self : ProcessId) (message : PrepareMessage) : Step Vote := do
  match ← record? self message.transaction with
  | some record => return record.vote.getD .no
  | none =>
    let idle : Record :=
      { transaction := message.transaction, coordinator := some message.coordinator }
    match ← tryPrepare message.operations with
    | some payload =>
      try
        advance self idle .prepared (.prepared message.coordinator payload)
      catch failure =>
        discard (abort payload)
        throw failure
      return .yes
    | none =>
      advance self idle .aborted (.voted message.coordinator .no)
      return .no

/-- Applies a decision. A decision applied before is acknowledged again. An abort of an unknown
transaction is logged, so that a PREPARE still on its way is refused; a commit of an unknown
transaction is acknowledged and leaves no trace. -/
def handleDecision (self : ProcessId) (transaction : TransactionId) (decision : Decision) :
    Step Unit := do
  match ← record? self transaction with
  | none =>
    if decision = .abort then
      advance self { transaction, coordinator := none } .aborted (.resolved .abort)
  | some record =>
    if record.hasApplied decision then return ()
    else if record.state ≠ .prepared then
      throw (.invalidState (.notApplicable transaction record.state self decision))
    else
      match record.payload with
      | none => throw (.invalidState (.missingPayload transaction))
      | some payload =>
        let carriedOut ←
          match decision with
          | .commit => commit payload
          | .abort => abort payload
        Action.ofExcept .internal carriedOut
        advance self record (.resolved decision) (.resolved decision)

/-- The transactions in memory that await a decision, in ascending order. -/
def blocked (memory : Memory) : List TransactionId :=
  (memory.entries.filter fun e => e.2.state = .prepared).map Prod.fst

/-- Drops a resolved transaction from memory; `false` if it was not there. -/
def forget (self : ProcessId) (transaction : TransactionId) : Step Bool := do
  match (← get).get? transaction with
  | none => return false
  | some record =>
    if record.state.isTerminal then
      modify fun memory => memory.erase transaction
      return true
    else throw (.invalidState (.unfinishedRecord transaction record.state self))

/-- Puts a replayed record into memory, and has the resource manager take hold of what it had
prepared; `false`, and nothing done, if memory has the transaction already. -/
def restore (record : Record) : Step Bool := do
  if (← get).contains record.transaction then return false
  else
    match record.state, record.payload with
    | .prepared, some payload =>
      let held ← reacquire payload
      Action.ofExcept .internal held
    | _, _ => pure ()
    modify fun memory => memory.insert record.transaction record
    return true

end AtomicCommit.Participant

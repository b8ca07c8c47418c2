import AtomicCommit.Transaction.Role

/-!
# A transaction at its coordinator

A transaction changes by applying log entries and in no other way, so that a coordinator's copy in
memory is what its log replays to. `check` says whether an entry is new, repeats something
recorded, or is refused; `apply` carries out a new one.

## Main definitions

* `Transaction.check`, `Transaction.apply`, `Transaction.replay`.
* `Transaction.tally`, `Transaction.pendingVotes`, `Transaction.unacknowledged`.
-/

namespace AtomicCommit

/-- The coordinator's view of a transaction. -/
structure Transaction where
  /-- Its identifier. -/
  id : TransactionId
  /-- Who takes part. -/
  participants : SortedSet ProcessId
  /-- The operations of each participant that has any. -/
  operations : Assignment
  /-- How far it has come. -/
  state : CoordinatorState := .init
  /-- The votes recorded. -/
  votes : SortedMap ProcessId Vote := ∅
  /-- The decision, once it is made. -/
  decision : Option Decision := none
  /-- Who has acknowledged the decision. -/
  acknowledged : SortedSet ProcessId := ∅
  /-- When it was created. -/
  createdAt : Timestamp
  /-- Until when its first prepare phase waits. -/
  deadline : Timestamp
deriving DecidableEq

namespace Transaction

/-- The operations of a participant; none if it has no part in the assignment. -/
def operationsFor (t : Transaction) (participant : ProcessId) : List Operation :=
  (t.operations.get? participant).getD []

/-- The participants whose vote is not recorded. -/
def pendingVotes (t : Transaction) : List ProcessId :=
  t.participants.toList.filter fun p => !t.votes.contains p

/-- The participants that have not acknowledged the decision. -/
def unacknowledged (t : Transaction) : List ProcessId :=
  t.participants.toList.filter fun p => !t.acknowledged.contains p

/-- The decision that the recorded votes determine, if they do. -/
def tally (t : Transaction) : Option Decision :=
  Decision.ofVotes t.votes.values t.participants.size

/-- Refuses processes that take no part. -/
def requireParticipant (t : Transaction) (process : ProcessId) : Except StateError Unit :=
  if t.participants.contains process then .ok () else .error (.stranger process t.id)

/-- Judges the data of an entry that leads to `next`. -/
def checkPayload (t : Transaction) (next : CoordinatorState) : Payload → Except StateError Bool
  | .vote participant vote =>
    if t.state ≠ .preparing ∨ next ≠ t.state then .error (.voteOutsidePhase t.id)
    else do
      t.requireParticipant participant
      match t.votes.get? participant with
      | none => return true
      | some recorded =>
        if recorded = vote then return false
        else throw (.voteChanged participant recorded t.id vote)
  | .decision decision =>
    match t.decision with
    | some decided => .error (.alreadyDecided t.id decided)
    | none =>
      if !t.state.canMoveTo next ∨ next ≠ .deciding decision then
        .error (.decisionMove decision t.id t.state next)
      else if decision = .commit ∧ t.tally ≠ some .commit then .error (.commitWithoutVotes t.id)
      else .ok true
  | .acknowledged participant =>
    if t.decision.isNone ∨ t.state.isTerminal ∨ next ≠ t.state then
      .error (.acknowledgedOutsidePhase t.id)
    else do
      t.requireParticipant participant
      return !t.acknowledged.contains participant
  | .none =>
    if !t.state.canMoveTo next ∨ next = .committing ∨ next = .aborting then
      .error (.plainMove t.id t.state next)
    else if next = .done ∧ t.acknowledged.size ≠ t.participants.size then
      .error (.notAcknowledged t.id)
    else .ok true
  | payload => .error (.unexpectedPayload payload)

/-- Judges an entry without changing anything: whether it is new (`true`), repeats what is recorded
(`false`), or is refused. -/
def check (t : Transaction) (entry : Entry) : Except StateError Bool :=
  if entry.transaction ≠ t.id then .error (.otherTransaction entry.transaction t.id)
  else if entry.previous ≠ some t.state.toState then
    .error (.staleState t.id t.state entry.previous)
  else do
    let next ← CoordinatorState.ofState entry.state
    t.checkPayload next entry.payload

/-- The transaction after a new entry that leads to `next`. -/
def record (t : Transaction) (next : CoordinatorState) : Payload → Transaction
  | .vote participant vote => { t with votes := t.votes.insert participant vote }
  | .decision decision => { t with decision := some decision, state := next }
  | .acknowledged participant =>
    { t with acknowledged := SortedSet.insert t.acknowledged participant }
  | _ => { t with state := next }

/-- Applies an entry, and says whether it was new. -/
def apply (t : Transaction) (entry : Entry) : Except StateError (Bool × Transaction) := do
  let new ← t.check entry
  match new, entry.state.coordinator? with
  | true, some next => return (true, t.record next entry.payload)
  | _, _ => return (false, t)

/-- Applies entries in order. -/
def applyAll (t : Transaction) (entries : List Entry) : Except StateError Transaction :=
  entries.foldlM (fun t entry => Prod.snd <$> t.apply entry) t

/-- The transaction that an entry creates, if it is the first of a history. -/
def ofBegin? (entry : Entry) : Option Transaction :=
  match entry.previous, entry.state, entry.payload with
  | none, .init, .begin participants operations deadline =>
    some
      { id := entry.transaction
        participants := SortedSet.ofList participants
        operations
        createdAt := entry.time
        deadline }
  | _, _, _ => none

/-- Rebuilds a transaction from the entries one coordinator wrote for it, in order. -/
def replay : List Entry → Except StateError Transaction
  | [] => .error .emptyHistory
  | first :: rest =>
    match ofBegin? first with
    | none => .error (.missingBegin first.transaction)
    | some t => t.applyAll rest

end Transaction

end AtomicCommit

import AtomicCommit.Coordinator.Basic

/-!
# Driving a transaction

The two phases of the protocol. In the first a coordinator collects votes until it has all of them,
one refuses, one fails to come, or the time is over; then it decides. In the second it delivers the
decision, round after round, until every participant has acknowledged it or the rounds are used up.

## Main definitions

* `Coordinator.prepare`, `Coordinator.decide`, `Coordinator.deliver`: the parts of both phases.
* `Coordinator.drive`: all of them, as far as they are still to be done.
* `Coordinator.begin`, `Coordinator.resume`: where a drive starts.
-/

namespace AtomicCommit

/-- How a transaction has ended for those who began it. -/
structure CommitOutcome where
  /-- The transaction. -/
  transaction : TransactionId
  /-- What has become of it. -/
  outcome : Outcome
  /-- Whether every participant has acknowledged the decision. -/
  fullyAcknowledged : Bool
deriving DecidableEq, Inhabited

namespace Coordinator

/-- Records votes as they come, at most `outstanding` of them, and stops at the first refusal and at
the first participant that gives none. -/
def collectVotes (self : Coordinator) : (outstanding : Nat) → (awaited : List ProcessId) →
    Transaction → Step Transaction
  | 0, _, t => return t
  | outstanding + 1, awaited, t => do
    match ← awaitVote t.id awaited with
    | none => return t
    | some reply =>
      match reply.result with
      | .error _ => return t
      | .ok vote =>
        let t ← self.transition t .preparing (.vote reply.sender vote)
        if vote = .no then return t
        else collectVotes self outstanding (awaited.erase reply.sender) t

/-- The message that asks a participant for its vote. -/
def prepareMessage (self : Coordinator) (t : Transaction) (participant : ProcessId) :
    PrepareMessage :=
  { transaction := t.id, coordinator := self.id, operations := t.operationsFor participant }

/-- Collects the votes that are missing, unless those recorded determine the decision already. -/
def prepare (self : Coordinator) (t : Transaction) (deadline : Timestamp) (resuming : Bool) :
    Step Transaction := do
  if t.tally.isSome then return t
  else
    let awaited := t.pendingVotes
    let time := Timestamp.remaining (← Host.now) deadline
    within time
      (← requestVotes resuming (awaited.map fun p => (p, self.prepareMessage t p)) time)
    self.collectVotes awaited.length awaited t

/-- Decides as the recorded votes determine, and to abort if they determine nothing. -/
def decide (self : Coordinator) (t : Transaction) : Step (Decision × Transaction) := do
  let decision := t.tally.getD .abort
  let t ← self.transition t (.deciding decision) (.decision decision)
  return (decision, t)

/-- Records acknowledgements as they come, at most `outstanding` of them. One that can not be
recorded counts as missing. -/
def collectAcknowledgements (self : Coordinator) (message : DecisionMessage) :
    (outstanding : Nat) → (awaited : List ProcessId) → Transaction → Step Transaction
  | 0, _, t => return t
  | outstanding + 1, awaited, t => do
    match ← awaitAcknowledgement message awaited with
    | none => return t
    | some reply =>
      let t ←
        match reply.result with
        | .ok () => (self.transition t t.state (.acknowledged reply.sender)).orValue t
        | .error _ => pure t
      collectAcknowledgements self message outstanding (awaited.erase reply.sender) t

/-- Delivers a decision to those that have not acknowledged it, in rounds from number `round` on,
with a pause before each but the first. -/
def deliverRounds (self : Coordinator) (message : DecisionMessage) : (rounds round : Nat) →
    Transaction → Step Transaction
  | 0, _, t => return t
  | rounds + 1, round, t => do
    let awaited := t.unacknowledged
    if awaited.isEmpty then return t
    else
      if 0 < round then pause (self.config.retry.backoff (round - 1))
      within self.config.ackTimeout (← sendDecision message awaited self.config.ackTimeout)
      let t ← self.collectAcknowledgements message awaited.length awaited t
      deliverRounds self message rounds (round + 1) t

/-- Delivers a decision, and says whether the transaction is done. -/
def deliver (self : Coordinator) (t : Transaction) (decision : Decision) : Step Bool := do
  let message : DecisionMessage := { transaction := t.id, decision }
  let t ← self.deliverRounds message self.config.retry.maxAttempts 0 t
  if !t.unacknowledged.isEmpty then return false
  else if t.state = .done then return true
  else
    let finish : Step Bool := do
      discard (self.transition t .done .none)
      return true
    finish.orValue false

/-- Takes a transaction as far as it goes: to its decision if it has none, then to its
participants. A transaction that is done leaves memory. -/
def drive (self : Coordinator) (t : Transaction) (deadline : Timestamp) (resuming : Bool) :
    Step CommitOutcome := do
  let (decision, t) ←
    match t.decision with
    | some decision => pure (decision, t)
    | none => do
      let t ← self.prepare t deadline resuming
      self.decide t
  let fullyAcknowledged ← self.deliver t decision
  if fullyAcknowledged then modify fun memory => memory.erase t.id
  return { transaction := t.id, outcome := decision.outcome, fullyAcknowledged }

/-- The point in time a duration from now, if it can be represented. -/
def deadlineAfter (time : Duration) : Step Timestamp := do
  let now ← Host.now
  match now.add? time with
  | some deadline => return deadline
  | none => throw (.invalidRequest (.timeoutRange time))

/-- Runs a new transaction until it is decided and delivered as far as possible. A request that
makes no sense is refused before anything is logged. -/
def begin (self : Coordinator) (participants : SortedSet ProcessId) (operations : Assignment)
    (timeout : Duration) : Step CommitOutcome := do
  if participants.isEmpty then throw (.invalidRequest .noParticipants)
  match operations.keys.find? fun p => !participants.contains p with
  | some stranger => throw (.invalidRequest (.stranger stranger))
  | none => pure ()
  let now ← Host.now
  match now.add? timeout with
  | none => throw (.invalidRequest (.timeoutRange timeout))
  | some deadline =>
    let id ← freshId
    let payload := .begin participants.toList operations deadline
    (Host.append
      { transaction := id, actor := self.id, previous := none, state := .init, payload,
        time := now }).mapError .log
    let t : Transaction := { id, participants, operations, createdAt := now, deadline }
    modify fun memory => memory.insert id t
    let t ← self.transition t .preparing .none
    self.drive t deadline false

/-- Goes on with a transaction from where its log ends. -/
def resume (self : Coordinator) (t : Transaction) : Step CommitOutcome := do
  let t ← if t.state = .init then self.transition t .preparing .none else pure t
  let deadline ← deadlineAfter self.config.prepareTimeout
  self.drive t deadline true

end Coordinator

end AtomicCommit

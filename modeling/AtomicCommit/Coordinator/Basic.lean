import AtomicCommit.Coordinator.Surroundings
import AtomicCommit.Transaction.Basic

/-!
# Coordinators

What a coordinator knows of its transactions, and the single step by which it changes one: the
entry is checked, logged, and only then applied. A transaction stays in memory until every
participant has acknowledged its decision; after that it is answered from the log.

## Main definitions

* `Coordinator.transition`: one step of a transaction.
* `Coordinator.queryState`, `Coordinator.queryDecision`: what is answered to others.
* `Coordinator.forget`, `Coordinator.restore`: what leaves memory and what comes back.
-/

namespace AtomicCommit

/-- A coordinator: its name and its configuration. -/
structure Coordinator where
  /-- The name under which it logs and is called. -/
  id : ProcessId
  /-- How long it waits and how often it tries. -/
  config : Config
deriving DecidableEq, Inhabited

namespace Coordinator

/-- The transactions that a coordinator has in memory. -/
abbrev Memory := SortedMap TransactionId Transaction

/-- A step of a coordinator. -/
abbrev Step := Action interface Memory CommitError

/-- Takes a transaction one step on, and keeps it in memory. The entry is checked first: a
contradiction is an error, and a repetition is neither logged nor applied. -/
def transition (self : Coordinator) (t : Transaction) (next : CoordinatorState)
    (payload : Payload) : Step Transaction := do
  let entry : Entry :=
    { transaction := t.id
      actor := self.id
      previous := some t.state.toState
      state := next.toState
      payload
      time := ← Host.now }
  if ← Action.ofExcept .invalidState (t.check entry) then
    (Host.append entry).mapError .log
    let (_, t) ← Action.ofExcept .invalidState (t.apply entry)
    modify fun memory => memory.insert t.id t
    return t
  else return t

/-- What is known of a transaction: the copy in memory, or what the log replays to. -/
def queryState (self : Coordinator) (transaction : TransactionId) : Step (Option Transaction) := do
  match (← get).get? transaction with
  | some t => return some t
  | none =>
    let entries ← (Host.history self.id transaction).mapError .log
    if entries.isEmpty then return none
    else some <$> Action.ofExcept .invalidState (Transaction.replay entries)

/-- The decision on a transaction, if there is one. An unknown transaction is presumed aborted: its
start is logged before any participant hears of it. -/
def queryDecision (self : Coordinator) (transaction : TransactionId) : Step (Option Decision) := do
  match ← queryState self transaction with
  | some t => return t.decision
  | none => return some .abort

/-- Drops a finished transaction from memory; `false` if it was not there. -/
def forget (transaction : TransactionId) : Step Bool := do
  match (← get).get? transaction with
  | none => return false
  | some t =>
    if t.state = .done then
      modify fun memory => memory.erase transaction
      return true
    else throw (.invalidState (.unfinishedTransaction transaction t.state))

/-- Puts a replayed transaction into memory, unless memory has a copy; the copy that it has then. -/
def restore {ε : Type} (replayed : Transaction) : Action interface Memory ε Transaction := do
  match (← get).get? replayed.id with
  | some t => return t
  | none =>
    modify fun memory => memory.insert replayed.id replayed
    return replayed

end Coordinator

end AtomicCommit

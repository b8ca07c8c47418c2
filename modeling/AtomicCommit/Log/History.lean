import AtomicCommit.Log.Entry

/-!
# Reading a log

A log is a list of entries in the order they were appended. These are the ways it is read: all
entries of a transaction, the entries of an actor for the transactions it has not finished, and
entries split into one history per transaction.
-/

namespace AtomicCommit.Log

/-- The entries of a transaction, by all actors. -/
def load (entries : List Entry) (transaction : TransactionId) : List Entry :=
  entries.filter fun e => e.transaction = transaction

/-- The entries that an actor wrote for a transaction. -/
def history (entries : List Entry) (actor : ProcessId) (transaction : TransactionId) : List Entry :=
  (load entries transaction).filter fun e => e.actor = actor

/-- The state in the last entry of an actor for a transaction. -/
def lastState? (entries : List Entry) (actor : ProcessId) (transaction : TransactionId) :
    Option State :=
  (history entries actor transaction).getLast?.map Entry.state

/-- Whether an actor has begun a transaction and not finished it. -/
def isIncomplete (entries : List Entry) (actor : ProcessId) (transaction : TransactionId) : Bool :=
  match lastState? entries actor transaction with
  | some s => !s.isTerminal
  | none => false

/-- The entries of an actor for the transactions it has not finished, in order. -/
def scanIncomplete (entries : List Entry) (actor : ProcessId) : List Entry :=
  entries.filter fun e => e.actor = actor && isIncomplete entries actor e.transaction

/-- The transactions of a list of entries, in order of first appearance. -/
def transactions (entries : List Entry) : List TransactionId :=
  (entries.map Entry.transaction).eraseDups

/-- One history per transaction, in order of first appearance. -/
def groupByTransaction (entries : List Entry) : List (List Entry) :=
  (transactions entries).map (load entries)

end AtomicCommit.Log

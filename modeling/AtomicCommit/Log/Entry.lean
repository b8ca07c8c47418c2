import AtomicCommit.Process
import AtomicCommit.Protocol.Operation
import AtomicCommit.Protocol.State
import AtomicCommit.Sorted.Map
import AtomicCommit.Time.Timestamp
import AtomicCommit.Transaction.Id

/-!
# Log entries

Every step of the protocol is an entry: who wrote it for which transaction, from which state to
which, with what data, and when.
-/

namespace AtomicCommit

/-- The operations of each participant that has any. -/
abbrev Assignment := SortedMap ProcessId (List Operation)

/-- The data of an entry. -/
inductive Payload where
  /-- No data. -/
  | none
  /-- The coordinator creates the transaction. -/
  | begin (participants : List ProcessId) (operations : Assignment) (deadline : Timestamp)
  /-- The coordinator has received a vote. -/
  | vote (participant : ProcessId) (vote : Vote)
  /-- The coordinator decides. -/
  | decision (decision : Decision)
  /-- A participant has acknowledged the decision to the coordinator. -/
  | acknowledged (participant : ProcessId)
  /-- A participant has prepared and votes to commit. -/
  | prepared (coordinator : ProcessId) (payload : PreparedPayload)
  /-- A participant has voted without preparing. -/
  | voted (coordinator : ProcessId) (vote : Vote)
  /-- A participant has applied a decision. -/
  | resolved (decision : Decision)
deriving DecidableEq, Inhabited

/-- One record of the log. -/
structure Entry where
  /-- The transaction it is about. -/
  transaction : TransactionId
  /-- The process that wrote it. -/
  actor : ProcessId
  /-- The state before it; none before an actor's first entry. -/
  previous : Option State
  /-- The state after it. -/
  state : State
  /-- Its data. -/
  payload : Payload
  /-- When it was written. -/
  time : Timestamp
deriving DecidableEq, Inhabited

end AtomicCommit

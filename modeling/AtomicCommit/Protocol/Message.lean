import AtomicCommit.Process
import AtomicCommit.Protocol.Operation
import AtomicCommit.Protocol.Vote
import AtomicCommit.Transaction.Id

/-!
# Messages

What a coordinator sends to a participant.
-/

namespace AtomicCommit

/-- Asks a participant to vote. -/
structure PrepareMessage where
  /-- The transaction to vote on. -/
  transaction : TransactionId
  /-- The coordinator that asks. -/
  coordinator : ProcessId
  /-- The work of this participant. -/
  operations : List Operation
deriving DecidableEq, Inhabited

/-- Tells a participant the decision; telling it again is always safe. -/
structure DecisionMessage where
  /-- The transaction decided. -/
  transaction : TransactionId
  /-- Its decision. -/
  decision : Decision
deriving DecidableEq, Inhabited

end AtomicCommit

import AtomicCommit.Error.Commit
import AtomicCommit.Program
import AtomicCommit.Protocol.Message

/-!
# Calls between processes

A coordinator calls participants, and a recovering participant calls coordinators. Each kind of
call has its own type of reply. `ballot` is the one conversation of more than a single call: how
the vote of a participant is got.
-/

namespace AtomicCommit

/-- A call to another process. -/
inductive Call where
  /-- Asks a participant to vote. -/
  | prepare (message : PrepareMessage)
  /-- Tells a participant the decision. -/
  | decision (message : DecisionMessage)
  /-- Asks a participant which vote it has logged. -/
  | queryVote (transaction : TransactionId)
  /-- Asks a coordinator which decision it has logged. -/
  | queryDecision (transaction : TransactionId)
deriving DecidableEq

namespace Call

/-- The reply to a call. -/
abbrev Reply : Call → Type
  | prepare _ => Vote
  | decision _ => Unit
  | queryVote _ => Option Vote
  | queryDecision _ => Option Decision

/-- The transaction that a call is about. -/
def transaction : Call → TransactionId
  | prepare message => message.transaction
  | decision message => message.transaction
  | queryVote transaction | queryDecision transaction => transaction

end Call

/-- A call and the process it goes to. -/
structure Addressed where
  /-- Who is called. -/
  target : ProcessId
  /-- The call. -/
  call : Call
deriving DecidableEq

/-- The means to call other processes, one call at a time. -/
abbrev Transport : Interface where
  Request := Addressed
  Answer request := Except TransportError request.call.Reply

namespace Transport

/-- Calls a process. -/
def call (target : ProcessId) (call : Call) :
    ExceptT TransportError (Program Transport) call.Reply :=
  ExceptT.mk (Program.request (I := Transport) ⟨target, call⟩)

/-- Gets the vote of a participant by PREPARE. When a transaction is resumed the participant is
first asked for the vote it has logged, and is sent PREPARE only if it has logged none. -/
def ballot (resuming : Bool) (target : ProcessId) (message : PrepareMessage) :
    ExceptT TransportError (Program Transport) Vote := do
  if resuming then
    match ← call target (.queryVote message.transaction) with
    | some vote => return vote
    | none => call target (.prepare message)
  else
    call target (.prepare message)

end Transport

/-- A reply to one of the calls that are out. -/
structure Reply (awaited : List ProcessId) (α : Type) where
  /-- Who has replied. -/
  sender : ProcessId
  /-- The sender had been called. -/
  sender_mem : sender ∈ awaited
  /-- The reply, or why there is none. -/
  result : Except TransportError α

end AtomicCommit

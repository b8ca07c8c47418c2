import AtomicCommit.Host
import AtomicCommit.Protocol.Message

/-!
# The surroundings of a participant

A participant works on behalf of a resource manager, which checks and prepares operations and later
commits or aborts what it has prepared. While it recovers it may ask coordinators for decisions.
-/

namespace AtomicCommit.Participant

/-- What a participant asks of its resource manager and of coordinators. -/
inductive Request where
  /-- Whether the operations can be committed. -/
  | canCommit (operations : List Operation)
  /-- To prepare the operations, so that they can be committed and aborted later. -/
  | prepare (operations : List Operation)
  /-- To commit what has been prepared. -/
  | commit (payload : PreparedPayload)
  /-- To abort what has been prepared. -/
  | abort (payload : PreparedPayload)
  /-- To take hold of what was prepared before a restart. -/
  | restore (payload : PreparedPayload)
  /-- What a coordinator has decided. -/
  | askDecision (coordinator : ProcessId) (transaction : TransactionId)

/-- What it is answered. -/
abbrev Answer : Request → Type
  | .canCommit _ => Except Fault Bool
  | .prepare _ => Except Fault PreparedPayload
  | .commit _ | .abort _ | .restore _ => Except Fault Unit
  | .askDecision _ _ => Except TransportError (Option Decision)

/-- The surroundings apart from the host. -/
abbrev surroundings : Interface := ⟨Request, Answer⟩

/-- All a participant may ask. -/
abbrev interface : Interface := Host.beside surroundings

variable {σ ε : Type}

/-- Asks the resource manager whether the operations can be committed. -/
def canCommit (operations : List Operation) : Action interface σ ε (Except Fault Bool) :=
  Action.ask (I := interface) (.inr (.canCommit operations))

/-- Has the resource manager prepare the operations. -/
def prepare (operations : List Operation) : Action interface σ ε (Except Fault PreparedPayload) :=
  Action.ask (I := interface) (.inr (.prepare operations))

/-- Has the resource manager commit what it has prepared. -/
def commit (payload : PreparedPayload) : Action interface σ ε (Except Fault Unit) :=
  Action.ask (I := interface) (.inr (.commit payload))

/-- Has the resource manager abort what it has prepared. -/
def abort (payload : PreparedPayload) : Action interface σ ε (Except Fault Unit) :=
  Action.ask (I := interface) (.inr (.abort payload))

/-- Has the resource manager take hold of what it had prepared before a restart. -/
def reacquire (payload : PreparedPayload) : Action interface σ ε (Except Fault Unit) :=
  Action.ask (I := interface) (.inr (.restore payload))

/-- Asks a coordinator for its decision. -/
def askDecision (coordinator : ProcessId) (transaction : TransactionId) :
    Action interface σ ε (Except TransportError (Option Decision)) :=
  Action.ask (I := interface) (.inr (.askDecision coordinator transaction))

/-! ## The programs of these actions -/

@[simp] theorem program_canCommit (operations : List Operation) (memory : σ) :
    (canCommit operations : Action interface σ ε _).program memory =
      .ask (I := interface.sharing σ) (.inr (.canCommit operations), memory) fun reply =>
        .done (.ok reply.1, reply.2) := rfl

@[simp] theorem program_prepare (operations : List Operation) (memory : σ) :
    (prepare operations : Action interface σ ε _).program memory =
      .ask (I := interface.sharing σ) (.inr (.prepare operations), memory) fun reply =>
        .done (.ok reply.1, reply.2) := rfl

@[simp] theorem program_commit (payload : PreparedPayload) (memory : σ) :
    (commit payload : Action interface σ ε _).program memory =
      .ask (I := interface.sharing σ) (.inr (.commit payload), memory) fun reply =>
        .done (.ok reply.1, reply.2) := rfl

@[simp] theorem program_abort (payload : PreparedPayload) (memory : σ) :
    (abort payload : Action interface σ ε _).program memory =
      .ask (I := interface.sharing σ) (.inr (.abort payload), memory) fun reply =>
        .done (.ok reply.1, reply.2) := rfl

@[simp] theorem program_reacquire (payload : PreparedPayload) (memory : σ) :
    (reacquire payload : Action interface σ ε _).program memory =
      .ask (I := interface.sharing σ) (.inr (.restore payload), memory) fun reply =>
        .done (.ok reply.1, reply.2) := rfl

@[simp] theorem program_askDecision (coordinator : ProcessId) (transaction : TransactionId)
    (memory : σ) :
    (askDecision coordinator transaction : Action interface σ ε _).program memory =
      .ask (I := interface.sharing σ) (.inr (.askDecision coordinator transaction), memory)
        fun reply => .done (.ok reply.1, reply.2) := rfl

end AtomicCommit.Participant

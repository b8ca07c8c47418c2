import AtomicCommit.Error.Commit
import AtomicCommit.Program

/-!
# The host of a process

Every process has a clock and a log. The log takes entries one at a time and gives back those of a
transaction, or those of an actor for its unfinished transactions.
-/

namespace AtomicCommit.Host

/-- What a process asks its host. -/
inductive Request where
  /-- What time it is. -/
  | now
  /-- To store an entry durably. -/
  | append (entry : Entry)
  /-- The entries of a transaction, by all actors. -/
  | load (transaction : TransactionId)
  /-- The entries of an actor for the transactions it has not finished. -/
  | scan (actor : ProcessId)

/-- What the host answers. -/
abbrev Answer : Request → Type
  | .now => Timestamp
  | .append _ => Except LogError Unit
  | .load _ => Except LogError (List Entry)
  | .scan _ => Except LogError (List Entry)

/-- A host beside other surroundings. -/
abbrev beside (surroundings : Interface) : Interface where
  Request := Request ⊕ surroundings.Request
  Answer
    | .inl q => Answer q
    | .inr q => surroundings.Answer q

variable {I : Interface} {σ ε : Type}

/-- Reads the clock. -/
def now : Action (beside I) σ ε Timestamp := Action.ask (I := beside I) (.inl .now)

/-- Stores an entry. -/
def append (entry : Entry) : Action (beside I) σ LogError Unit := do
  let stored : Except LogError Unit ← Action.ask (I := beside I) (.inl (.append entry))
  Action.ofExcept id stored

/-- Reads the entries of a transaction. -/
def load (transaction : TransactionId) : Action (beside I) σ LogError (List Entry) := do
  let found : Except LogError (List Entry) ← Action.ask (I := beside I) (.inl (.load transaction))
  Action.ofExcept id found

/-- Reads the entries of an actor for the transactions it has not finished. -/
def scan (actor : ProcessId) : Action (beside I) σ LogError (List Entry) := do
  let found : Except LogError (List Entry) ← Action.ask (I := beside I) (.inl (.scan actor))
  Action.ofExcept id found

/-- Reads the entries that an actor wrote for a transaction. -/
def history (actor : ProcessId) (transaction : TransactionId) :
    Action (beside I) σ LogError (List Entry) := do
  return (← load transaction).filter fun e => e.actor = actor

/-! ## The programs of these actions -/

@[simp] theorem program_now (memory : σ) :
    (now : Action (beside I) σ ε Timestamp).program memory =
      .ask (I := (beside I).sharing σ) (.inl .now, memory) fun reply =>
        .done (.ok reply.1, reply.2) := rfl

@[simp] theorem program_append (entry : Entry) (memory : σ) :
    (append entry : Action (beside I) σ LogError Unit).program memory =
      .ask (I := (beside I).sharing σ) (.inl (.append entry), memory) fun reply => .done reply := by
  show Program.ask _ _ = Program.ask _ _
  congr 1
  funext (stored, memory)
  cases stored <;> rfl

@[simp] theorem program_load (transaction : TransactionId) (memory : σ) :
    (load transaction : Action (beside I) σ LogError (List Entry)).program memory =
      .ask (I := (beside I).sharing σ) (.inl (.load transaction), memory) fun reply =>
        .done reply := by
  show Program.ask _ _ = Program.ask _ _
  congr 1
  funext (found, memory)
  cases found <;> rfl

@[simp] theorem program_scan (actor : ProcessId) (memory : σ) :
    (scan actor : Action (beside I) σ LogError (List Entry)).program memory =
      .ask (I := (beside I).sharing σ) (.inl (.scan actor), memory) fun reply => .done reply := by
  show Program.ask _ _ = Program.ask _ _
  congr 1
  funext (found, memory)
  cases found <;> rfl

@[simp] theorem program_history (actor : ProcessId) (transaction : TransactionId) (memory : σ) :
    (history actor transaction : Action (beside I) σ LogError (List Entry)).program memory =
      .ask (I := (beside I).sharing σ) (.inl (.load transaction), memory) fun reply =>
        .done (Except.map (List.filter fun e => e.actor = actor) reply.1, reply.2) := by
  show Program.ask _ _ = Program.ask _ _
  congr 1
  funext (found, memory)
  cases found <;> rfl

end AtomicCommit.Host

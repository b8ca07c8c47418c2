/-!
# Programs that ask their surroundings

A process is written as a program: a tree that either ends with a result or asks its surroundings
one question and goes on with the answer. A program does nothing by itself. Running it against a
state, letting its surroundings fail, or stopping it between two questions are all ways to read the
same tree, so a law about every run is a law about the tree.

## Main definitions

* `Interface`, `Program`, `Program.interpret`: questions, trees, and runs of a tree in a monad.
* `Action`: programs of a process that has a memory and may fail. Whenever such a program asks, its
  memory lies open to the other activities of the process.
-/

namespace AtomicCommit

/-- The questions that a program may ask, and the answers to each. -/
structure Interface where
  /-- The questions. -/
  Request : Type
  /-- The answers to a question. -/
  Answer : Request → Type

/-- The same questions asked by a process with memory `σ`: every question lays the memory open, and
with the answer comes the memory as it is then. -/
abbrev Interface.sharing (I : Interface) (σ : Type) : Interface where
  Request := I.Request × σ
  Answer q := I.Answer q.1 × σ

/-- A computation that asks its surroundings questions. -/
inductive Program (I : Interface) (α : Type) where
  /-- Ends with a result. -/
  | done (result : α)
  /-- Asks, and goes on with the answer. -/
  | ask (request : I.Request) (next : I.Answer request → Program I α)

namespace Program

variable {I : Interface} {α β γ : Type}

/-- Goes on with the result of a program. -/
def bind : Program I α → (α → Program I β) → Program I β
  | done a, f => f a
  | ask request next, f => ask request fun answer => (next answer).bind f

instance : Monad (Program I) where
  pure := done
  bind := bind

@[simp] theorem pure_eq_done (a : α) : (pure a : Program I α) = done a := rfl

@[simp] theorem done_bind (a : α) (f : α → Program I β) : (done a >>= f) = f a := rfl

@[simp] theorem ask_bind (request : I.Request) (next : I.Answer request → Program I α)
    (f : α → Program I β) :
    (ask request next >>= f) = ask request fun answer => next answer >>= f := rfl

theorem bind_done (p : Program I α) : (p >>= done) = p := by
  induction p with
  | done a => rfl
  | ask request next ih => simp only [ask_bind, ih]

theorem bind_assoc (p : Program I α) (f : α → Program I β) (g : β → Program I γ) :
    ((p >>= f) >>= g) = (p >>= fun a => f a >>= g) := by
  induction p with
  | done a => rfl
  | ask request next ih => simp only [ask_bind, ih]

instance : LawfulMonad (Program I) :=
  LawfulMonad.mk' (Program I) bind_done (fun _ _ => rfl) bind_assoc

/-- The program that asks one question and ends with the answer. -/
def request (q : I.Request) : Program I (I.Answer q) := ask q done

/-- Runs a program in a monad that answers its questions. -/
def interpret {m : Type → Type} [Monad m] (answer : (q : I.Request) → m (I.Answer q)) :
    Program I α → m α
  | done a => pure a
  | ask request next => answer request >>= fun a => (next a).interpret answer

/-- A run of a program after another is a run of the one and then of the other. -/
theorem interpret_bind {m : Type → Type} [Monad m] [LawfulMonad m]
    (answer : (q : I.Request) → m (I.Answer q)) (p : Program I α) (f : α → Program I β) :
    (p >>= f).interpret answer = p.interpret answer >>= fun a => (f a).interpret answer := by
  induction p with
  | done a => simp [interpret]
  | ask request next ih => simp [interpret, ih]

end Program

/-- A program of a process with memory `σ` that may fail with an error `ε`. What it has done to its
memory before it fails stays done. -/
abbrev Action (I : Interface) (σ ε : Type) := ExceptT ε (StateT σ (Program (I.sharing σ)))

namespace Action

variable {I : Interface} {σ ε δ α β : Type}

/-- Asks one question. -/
def ask (q : I.Request) : Action I σ ε (I.Answer q) :=
  ExceptT.lift fun memory => Program.request (I := I.sharing σ) (q, memory)

/-- Fails if the result is an error, which `wrap` turns into one of this action. -/
def ofExcept (wrap : δ → ε) : Except δ α → Action I σ ε α
  | .ok a => pure a
  | .error e => throw (wrap e)

/-- The action with its error turned into another. -/
def mapError (wrap : δ → ε) (action : Action I σ δ α) : Action I σ ε α :=
  ExceptT.adapt wrap action

/-- The action, or a value in place of its error. -/
def orValue (fallback : α) (action : Action I σ ε α) : Action I σ ε α :=
  tryCatch action fun _ => pure fallback

/-- The result of an action or its error, as a value. -/
def attempt (action : Action I σ ε α) : Action I σ δ (Except ε α) :=
  ExceptT.lift (ExceptT.run action)

/-- The program of an action on a given memory. -/
def program (action : Action I σ ε α) (memory : σ) : Program (I.sharing σ) (Except ε α × σ) :=
  StateT.run (ExceptT.run action) memory

/-- Runs an action with nothing coming between its questions: its memory stays as it leaves it. -/
def interpret {m : Type → Type} [Monad m] (answer : (q : I.Request) → m (I.Answer q))
    (action : Action I σ ε α) (memory : σ) : m (Except ε α × σ) :=
  (action.program memory).interpret fun (q : I.Request × σ) => do return (← answer q.1, q.2)

/-! ## The program of each way to build an action -/

@[simp] theorem program_pure (a : α) (memory : σ) :
    (pure a : Action I σ ε α).program memory = .done (.ok a, memory) := rfl

@[simp] theorem program_throw (e : ε) (memory : σ) :
    (throw e : Action I σ ε α).program memory = .done (.error e, memory) := rfl

@[simp] theorem program_get (memory : σ) :
    (get : Action I σ ε σ).program memory = .done (.ok memory, memory) := rfl

@[simp] theorem program_modify (f : σ → σ) (memory : σ) :
    (modify f : Action I σ ε Unit).program memory = .done (.ok (), f memory) := rfl

@[simp] theorem program_ask (q : I.Request) (memory : σ) :
    (ask q : Action I σ ε (I.Answer q)).program memory =
      .ask (I := I.sharing σ) (q, memory) fun reply => .done (.ok reply.1, reply.2) := rfl

/-- An action after another starts on the memory the other leaves, unless that has failed. -/
theorem program_bind (action : Action I σ ε α) (next : α → Action I σ ε β) (memory : σ) :
    (action >>= next).program memory = action.program memory >>= fun
      | (.ok a, memory) => (next a).program memory
      | (.error e, memory) => .done (.error e, memory) := by
  show Program.bind _ _ = Program.bind _ _
  congr 1
  funext (result, memory)
  cases result <;> rfl

/-- A function of the result changes nothing else. -/
theorem program_map (f : α → β) (action : Action I σ ε α) (memory : σ) :
    (f <$> action).program memory =
      action.program memory >>= fun outcome => .done (outcome.1.map f, outcome.2) := by
  rw [← bind_pure_comp, program_bind]
  congr 1
  funext (result, memory)
  cases result <;> rfl

/-- What follows a failure starts on the memory that the failed action leaves. -/
theorem program_tryCatch (action : Action I σ ε α) (handle : ε → Action I σ ε α) (memory : σ) :
    (tryCatch action handle).program memory = action.program memory >>= fun
      | (.ok a, memory) => .done (.ok a, memory)
      | (.error e, memory) => (handle e).program memory := by
  show Program.bind _ _ = Program.bind _ _
  congr 1
  funext (result, memory)
  cases result <;> rfl

/-- Another error changes nothing else. -/
theorem program_mapError (wrap : δ → ε) (action : Action I σ δ α) (memory : σ) :
    (action.mapError wrap).program memory =
      action.program memory >>= fun outcome =>
        .done (outcome.1.mapError wrap, outcome.2) := rfl

@[simp] theorem program_ofExcept (wrap : δ → ε) (result : Except δ α) (memory : σ) :
    (ofExcept wrap result : Action I σ ε α).program memory =
      .done (result.mapError wrap, memory) := by
  cases result <;> rfl

/-- An error becomes a value. -/
theorem program_attempt (action : Action I σ ε α) (memory : σ) :
    (action.attempt : Action I σ δ (Except ε α)).program memory =
      action.program memory >>= fun outcome => .done (.ok outcome.1, outcome.2) := rfl

end Action

end AtomicCommit

import AtomicCommit.Host

/-!
# Contracts between a program and its surroundings

A contract says which questions may be asked in which world, and in which worlds an answer may
find the program again. A program meets a contract if it keeps to the questions as long as the
surroundings keep to the answers, and ends as promised. What holds of every run under the contract
is read off the tree; nothing is run.

## Main definitions

* `Contract`: the rights and duties of a program in a world.
* `Program.Meets`: a program keeps to a contract and ends as promised.
* `Action.Meets`: the same for an action on a memory, with a promise for each kind of end.
-/

namespace AtomicCommit

/-- What a program may ask, and what may come of a question. -/
structure Contract (I : Interface) (W : Type) where
  /-- The questions that may be asked in a world. -/
  asks : W → I.Request → Prop
  /-- The worlds in which an answer may find the program again. -/
  answers : W → (q : I.Request) → I.Answer q → W → Prop

namespace Program

variable {I : Interface} {W α β : Type} {c : Contract I W}

/-- From the world on, the program asks only what it may, whatever it is answered, and its end is as
promised. -/
def Meets (c : Contract I W) (post : α → W → Prop) : Program I α → W → Prop
  | done a, w => post a w
  | ask q next, w => c.asks w q ∧ ∀ a w', c.answers w q a w' → (next a).Meets c post w'

@[simp] theorem meets_done {post : α → W → Prop} {a : α} {w : W} :
    (done a : Program I α).Meets c post w ↔ post a w := Iff.rfl

@[simp] theorem meets_ask {post : α → W → Prop} {q : I.Request}
    {next : I.Answer q → Program I α} {w : W} :
    (ask q next).Meets c post w ↔
      c.asks w q ∧ ∀ a w', c.answers w q a w' → (next a).Meets c post w' := Iff.rfl

/-- A program after another has to meet the contract wherever the other may end. -/
theorem meets_bind {post : β → W → Prop} {f : α → Program I β} {p : Program I α} {w : W} :
    (p >>= f).Meets c post w ↔ p.Meets c (fun a => (f a).Meets c post) w := by
  induction p generalizing w with
  | done a => rfl
  | ask q next ih => simp only [ask_bind, meets_ask, ih]

theorem Meets.mono {post post' : α → W → Prop} {p : Program I α} {w : W} (h : p.Meets c post w)
    (weaken : ∀ a w, post a w → post' a w) : p.Meets c post' w := by
  induction p generalizing w with
  | done a => exact weaken a w h
  | ask q next ih => exact ⟨h.1, fun a w' answered => ih a (h.2 a w' answered)⟩

/-- A program meets every contract that lets it ask as much and lets no more come of it. -/
theorem Meets.of_contract {c' : Contract I W} {post : α → W → Prop} {p : Program I α} {w : W}
    (h : p.Meets c post w) (asks : ∀ w q, c.asks w q → c'.asks w q)
    (answers : ∀ w q a w', c'.answers w q a w' → c.answers w q a w') : p.Meets c' post w := by
  induction p generalizing w with
  | done a => exact h
  | ask q next ih =>
    exact ⟨asks w q h.1, fun a w' answered => ih a (h.2 a w' (answers w q a w' answered))⟩

end Program

namespace Action

variable {I : Interface} {W σ ε δ α β : Type} {c : Contract (I.sharing σ) W}

/-- The action meets the contract on the memory in the world, and promises `ok` of a result and
`err` of a failure, with the memory and the world it leaves. -/
def Meets (c : Contract (I.sharing σ) W) (action : Action I σ ε α) (ok : α → σ → W → Prop)
    (err : ε → σ → W → Prop) (memory : σ) (w : W) : Prop :=
  (action.program memory).Meets c
    (fun outcome w =>
      match outcome with
      | (.ok a, memory) => ok a memory w
      | (.error e, memory) => err e memory w) w

variable {ok : α → σ → W → Prop} {err : ε → σ → W → Prop} {memory : σ} {w : W}

theorem Meets.mono {action : Action I σ ε α} {ok ok' : α → σ → W → Prop}
    {err err' : ε → σ → W → Prop} {memory : σ} {w : W} (h : action.Meets c ok err memory w)
    (weaken : ∀ a memory w, ok a memory w → ok' a memory w)
    (weaken' : ∀ e memory w, err e memory w → err' e memory w) :
    action.Meets c ok' err' memory w := by
  refine Program.Meets.mono h ?_
  rintro ⟨result, memory⟩ w
  cases result with
  | ok a => exact weaken a memory w
  | error e => exact weaken' e memory w

theorem Meets.imp_ok {action : Action I σ ε α} {ok ok' : α → σ → W → Prop}
    {err : ε → σ → W → Prop} {memory : σ} {w : W} (h : action.Meets c ok err memory w)
    (weaken : ∀ a memory w, ok a memory w → ok' a memory w) :
    action.Meets c ok' err memory w :=
  h.mono weaken fun _ _ _ failed => failed

@[simp] theorem meets_pure {a : α} :
    (pure a : Action I σ ε α).Meets c ok err memory w ↔ ok a memory w := Iff.rfl

@[simp] theorem meets_throw {e : ε} :
    (throw e : Action I σ ε α).Meets c ok err memory w ↔ err e memory w := Iff.rfl

@[simp] theorem meets_get {ok : σ → σ → W → Prop} :
    (get : Action I σ ε σ).Meets c ok err memory w ↔ ok memory memory w := Iff.rfl

@[simp] theorem meets_modify {ok : Unit → σ → W → Prop} {f : σ → σ} :
    (modify f : Action I σ ε Unit).Meets c ok err memory w ↔ ok () (f memory) w := Iff.rfl

theorem meets_ask {q : I.Request} {ok : I.Answer q → σ → W → Prop} :
    (ask q : Action I σ ε (I.Answer q)).Meets c ok err memory w ↔
      c.asks w (q, memory) ∧
        ∀ a memory' w', c.answers w (q, memory) (a, memory') w' → ok a memory' w' := by
  simp only [Meets, program_ask, Program.meets_ask, Program.meets_done, Prod.forall]

@[simp] theorem meets_bind {ok : β → σ → W → Prop} {action : Action I σ ε α}
    {next : α → Action I σ ε β} :
    (action >>= next).Meets c ok err memory w ↔
      action.Meets c (fun a => (next a).Meets c ok err) err memory w := by
  simp only [Meets, program_bind, Program.meets_bind]
  refine iff_of_eq (congrFun (congrArg (Program.Meets c · _) ?_) w)
  funext outcome w
  obtain ⟨result, memory⟩ := outcome
  cases result <;> rfl

@[simp] theorem meets_map {ok : β → σ → W → Prop} {f : α → β} {action : Action I σ ε α} :
    (f <$> action).Meets c ok err memory w ↔
      action.Meets c (fun a => ok (f a)) err memory w := by
  rw [← bind_pure_comp, meets_bind]
  rfl

@[simp] theorem meets_discard {ok : PUnit → σ → W → Prop} {action : Action I σ ε α} :
    (discard action).Meets c ok err memory w ↔
      action.Meets c (fun _ => ok ⟨⟩) err memory w := by
  unfold Functor.discard
  rw [LawfulFunctor.map_const]
  exact meets_map

@[simp] theorem meets_tryCatch {action : Action I σ ε α} {handle : ε → Action I σ ε α} :
    (tryCatch action handle).Meets c ok err memory w ↔
      action.Meets c ok (fun e => (handle e).Meets c ok err) memory w := by
  simp only [Meets, program_tryCatch, Program.meets_bind]
  refine iff_of_eq (congrFun (congrArg (Program.Meets c · _) ?_) w)
  funext outcome w
  obtain ⟨result, memory⟩ := outcome
  cases result <;> rfl

@[simp] theorem meets_mapError {wrap : δ → ε} {action : Action I σ δ α} :
    (action.mapError wrap).Meets c ok err memory w ↔
      action.Meets c ok (fun e => err (wrap e)) memory w := by
  simp only [Meets, program_mapError, Program.meets_bind]
  refine iff_of_eq (congrFun (congrArg (Program.Meets c · _) ?_) w)
  funext outcome w
  obtain ⟨result, memory⟩ := outcome
  cases result <;> rfl

@[simp] theorem meets_ofExcept {wrap : δ → ε} {result : Except δ α} :
    (ofExcept wrap result : Action I σ ε α).Meets c ok err memory w ↔
      (∀ a, result = .ok a → ok a memory w) ∧ ∀ e, result = .error e → err (wrap e) memory w := by
  cases result with
  | ok a =>
    rw [ofExcept, meets_pure]
    simp
  | error e =>
    rw [ofExcept, meets_throw]
    simp

@[simp] theorem meets_orValue {fallback : α} {action : Action I σ ε α} :
    (action.orValue fallback).Meets c ok err memory w ↔
      action.Meets c ok (fun _ => ok fallback) memory w := by
  rw [orValue, meets_tryCatch]
  rfl

@[simp] theorem meets_attempt {ok : Except δ α → σ → W → Prop} {action : Action I σ δ α} :
    (action.attempt : Action I σ ε (Except δ α)).Meets c ok err memory w ↔
      action.Meets c (fun a => ok (.ok a)) (fun e => ok (.error e)) memory w := by
  simp only [Meets, program_attempt, Program.meets_bind]
  refine iff_of_eq (congrFun (congrArg (Program.Meets c · _) ?_) w)
  funext outcome w
  obtain ⟨result, memory⟩ := outcome
  cases result <;> rfl

/-- What every action of a list keeps is kept by all of them, one after another. -/
theorem Meets.forM {P : σ → W → Prop} {l : List α} {action : α → Action I σ ε PUnit}
    (each : ∀ a ∈ l, ∀ memory w, P memory w →
      (action a).Meets c (fun _ => P) err memory w) (holds : P memory w) :
    (l.forM action).Meets c (fun _ => P) err memory w := by
  induction l generalizing memory w with
  | nil => exact holds
  | cons a rest ih =>
    obtain ⟨first, others⟩ := List.forall_mem_cons.1 each
    rw [List.forM_eq_forM, List.forM_cons, meets_bind]
    exact (first memory w holds).imp_ok fun _ _ _ kept => ih others kept

theorem Meets.foldlM {P : σ → W → Prop} {l : List α} {action : β → α → Action I σ ε β} {b : β}
    (each : ∀ a ∈ l, ∀ b memory w, P memory w →
      (action b a).Meets c (fun _ => P) err memory w) (holds : P memory w) :
    (l.foldlM action b).Meets c (fun _ => P) err memory w := by
  induction l generalizing b memory w with
  | nil => exact holds
  | cons a rest ih =>
    obtain ⟨first, others⟩ := List.forall_mem_cons.1 each
    rw [List.foldlM_cons, meets_bind]
    exact (first b memory w holds).imp_ok fun _ _ _ kept => ih others kept

/-- What is promised of the result of an action and of its failure is promised of its program. -/
theorem Meets.program {post : Except ε α × σ → W → Prop} {action : Action I σ ε α}
    (h : action.Meets c (fun a memory => post (.ok a, memory))
      (fun e memory => post (.error e, memory)) memory w) :
    (action.program memory).Meets c post w := by
  refine Program.Meets.mono h ?_
  rintro ⟨result, memory⟩ w h
  cases result <;> exact h

end Action

/-! ## Questions to the host -/

namespace Host

variable {I : Interface} {W σ ε : Type} {c : Contract ((beside I).sharing σ) W} {memory : σ} {w : W}

/-- A question to the host whose answer may be an error. -/
theorem meets_append {entry : Entry} {ok : Unit → σ → W → Prop} {err : LogError → σ → W → Prop} :
    (append entry : Action (beside I) σ LogError Unit).Meets c ok err memory w ↔
      c.asks w (.inl (.append entry), memory) ∧
        ∀ (a : Except LogError Unit) memory' w',
          c.answers w (.inl (.append entry), memory) (a, memory') w' →
            (∀ u, a = .ok u → ok u memory' w') ∧ ∀ e, a = .error e → err e memory' w' := by
  rw [append, Action.meets_bind, Action.meets_ask]
  simp only [Action.meets_ofExcept, id]

theorem meets_load {tx : TransactionId} {ok : List Entry → σ → W → Prop}
    {err : LogError → σ → W → Prop} :
    (load tx : Action (beside I) σ LogError (List Entry)).Meets c ok err memory w ↔
      c.asks w (.inl (.load tx), memory) ∧
        ∀ (a : Except LogError (List Entry)) memory' w',
          c.answers w (.inl (.load tx), memory) (a, memory') w' →
            (∀ es, a = .ok es → ok es memory' w') ∧ ∀ e, a = .error e → err e memory' w' := by
  rw [load, Action.meets_bind, Action.meets_ask]
  simp only [Action.meets_ofExcept, id]

theorem meets_scan {actor : ProcessId} {ok : List Entry → σ → W → Prop}
    {err : LogError → σ → W → Prop} :
    (scan actor : Action (beside I) σ LogError (List Entry)).Meets c ok err memory w ↔
      c.asks w (.inl (.scan actor), memory) ∧
        ∀ (a : Except LogError (List Entry)) memory' w',
          c.answers w (.inl (.scan actor), memory) (a, memory') w' →
            (∀ es, a = .ok es → ok es memory' w') ∧ ∀ e, a = .error e → err e memory' w' := by
  rw [scan, Action.meets_bind, Action.meets_ask]
  simp only [Action.meets_ofExcept, id]

end Host

end AtomicCommit

import AtomicCommit.Program

/-!
# Programs that look alike

Some questions of a program leave no trace: nobody but the program notices that they are asked, and
their answers follow from the state of its world. Two programs look alike if they differ in such
questions only. They ask the same other questions in the same order, go on alike as long as they are
told the same, and end with related outcomes; what each has in memory may differ.

## Main definitions

* `View`: which questions leave no trace, and what is known when another is asked and answered.
* `Program.Alike`: two programs, each in its own world, look alike.
* `Program.hush`: a program that has asked all it can without leaving a trace.
* `Action.Alike`: an action looks alike on two memories.
-/

namespace AtomicCommit

/-- How somebody outside sees a process with memory `σ` in a world `W`. -/
structure View (I : Interface) (σ W : Type) where
  /-- The answer to a question that leaves no trace. -/
  silent : W → (q : I.Request) → Option (I.Answer q)
  /-- What is known of two processes, their worlds and memories, when both ask a question. -/
  asks : I.Request → W → σ → W → σ → Prop
  /-- Which answers to a question tell both the same. -/
  agrees : (q : I.Request) → I.Answer q → I.Answer q → Prop
  /-- What is known of them when both have been answered. -/
  resumes : I.Request → W → σ → W → σ → Prop

variable {I : Interface} {σ W : Type} {V : View I σ W}

namespace Program

/-- Two programs, each in a world of its own, look alike and end with related outcomes. -/
inductive Alike {α : Type} (V : View I σ W) (post : W → W → α → α → Prop) :
    W → W → Program (I.sharing σ) α → Program (I.sharing σ) α → Prop where
  /-- Both end. -/
  | done {w w' : W} {a a' : α} (h : post w w' a a') : Alike V post w w' (.done a) (.done a')
  /-- Both ask a question that is noticed. -/
  | ask {w w' : W} {q : I.Request} {m m' : σ}
      {next next' : I.Answer q × σ → Program (I.sharing σ) α}
      (noticed : V.silent w q = none) (noticed' : V.silent w' q = none)
      (asks : V.asks q w m w' m')
      (rest : ∀ a a' w₁ m₁ w₁' m₁', V.agrees q a a' → V.resumes q w₁ m₁ w₁' m₁' →
        Alike V post w₁ w₁' (next (a, m₁)) (next' (a', m₁'))) :
      Alike V post w w' (.ask (I := I.sharing σ) (q, m) next)
        (.ask (I := I.sharing σ) (q, m') next')
  /-- The first asks a question that is not. -/
  | left {w w' : W} {q : I.Request} {m : σ} {next : I.Answer q × σ → Program (I.sharing σ) α}
      {a : I.Answer q} {p' : Program (I.sharing σ) α} (silent : V.silent w q = some a)
      (rest : Alike V post w w' (next (a, m)) p') :
      Alike V post w w' (.ask (I := I.sharing σ) (q, m) next) p'
  /-- The second asks a question that is not. -/
  | right {w w' : W} {q : I.Request} {m' : σ} {next' : I.Answer q × σ → Program (I.sharing σ) α}
      {a : I.Answer q} {p : Program (I.sharing σ) α} (silent : V.silent w' q = some a)
      (rest : Alike V post w w' p (next' (a, m'))) :
      Alike V post w w' p (.ask (I := I.sharing σ) (q, m') next')

/-- The program once it has asked all that leaves no trace. -/
def hush {α : Type} (V : View I σ W) (w : W) : Program (I.sharing σ) α → Program (I.sharing σ) α
  | .done a => .done a
  | .ask (q, m) next =>
    match V.silent w q with
    | some a => (next (a, m)).hush V w
    | none => .ask (I := I.sharing σ) (q, m) next

variable {α β : Type} {w w' : W} {p p' : Program (I.sharing σ) α}

theorem Alike.bind {mid : W → W → α → α → Prop} {post : W → W → β → β → Prop}
    {f f' : α → Program (I.sharing σ) β} (h : Alike V mid w w' p p')
    (next : ∀ w w' a a', mid w w' a a' → Alike V post w w' (f a) (f' a')) :
    Alike V post w w' (p >>= f) (p' >>= f') := by
  induction h with
  | done h => exact next _ _ _ _ h
  | ask noticed noticed' asks _ ih => exact .ask noticed noticed' asks ih
  | left silent _ ih => exact .left silent ih
  | right silent _ ih => exact .right silent ih

theorem Alike.mono {post post' : W → W → α → α → Prop} (h : Alike V post w w' p p')
    (weaken : ∀ w w' a a', post w w' a a' → post' w w' a a') : Alike V post' w w' p p' := by
  induction h with
  | done h => exact .done (weaken _ _ _ _ h)
  | ask noticed noticed' asks _ ih => exact .ask noticed noticed' asks ih
  | left silent _ ih => exact .left silent ih
  | right silent _ ih => exact .right silent ih

theorem hush_ask {q : I.Request} {a : I.Answer q} {m : σ}
    {next : I.Answer q × σ → Program (I.sharing σ) α} (silent : V.silent w q = some a) :
    (ask (I := I.sharing σ) (q, m) next).hush V w = (next (a, m)).hush V w := by
  rw [hush, silent]

/-- What follows a program that ends without leaving a trace. -/
theorem hush_bind {a : α} {f : α → Program (I.sharing σ) β} (h : p.hush V w = .done a) :
    (p >>= f).hush V w = (f a).hush V w := by
  induction p with
  | done a' =>
    cases h
    rfl
  | ask request next ih =>
    obtain ⟨q, m⟩ := request
    simp only [hush] at h
    split at h
    · rename_i a silent
      rw [ask_bind, hush_ask silent]
      exact ih _ h
    · cases h

/-- What leaves no trace may be asked at once. -/
theorem Alike.hush {post : W → W → α → α → Prop} (h : Alike V post w w' p p') :
    Alike V post w w' p (p'.hush V w') := by
  induction h with
  | done h => exact .done h
  | ask noticed noticed' asks rest _ =>
    simp only [Program.hush, noticed']
    exact .ask noticed noticed' asks rest
  | left silent _ ih => exact .left silent ih
  | right silent _ ih =>
    simp only [Program.hush, silent]
    exact ih

theorem Alike.of_hush_left {post : W → W → α → α → Prop} (h : Alike V post w w' (p.hush V w) p') :
    Alike V post w w' p p' := by
  induction p with
  | done a => exact h
  | ask request next ih =>
    obtain ⟨q, m⟩ := request
    simp only [Program.hush] at h
    split at h
    · rename_i a silent
      exact .left silent (ih _ h)
    · exact h

/-- Programs look alike if they do once both have asked what leaves no trace. -/
theorem Alike.of_hush {post : W → W → α → α → Prop}
    (h : Alike V post w w' (p.hush V w) (p'.hush V w')) : Alike V post w w' p p' := by
  refine Alike.of_hush_left ?_
  induction p' with
  | done a => exact h
  | ask request next ih =>
    obtain ⟨q, m⟩ := request
    simp only [Program.hush] at h
    split at h
    · rename_i a silent
      exact .right silent (ih _ h)
    · exact h

/-- A program that has asked all that leaves no trace asks what is noticed, if anything. -/
theorem silent_of_hush {q : I.Request} {m : σ} {next : I.Answer q × σ → Program (I.sharing σ) α}
    (h : p.hush V w = .ask (I := I.sharing σ) (q, m) next) : V.silent w q = none := by
  induction p with
  | done a => cases h
  | ask request rest ih =>
    obtain ⟨q', m'⟩ := request
    simp only [Program.hush] at h
    split at h
    · exact ih _ h
    · cases h
      assumption

end Program

namespace Action

variable {ε δ α β : Type}

/-- The action on one memory looks like the action on another, each in a world of its own: its
results are the same, and `keeps` is known of what it leaves. -/
def Alike (V : View I σ W) (action : Action I σ ε α) (keeps : W → σ → W → σ → Prop) (w : W) (m : σ)
    (w' : W) (m' : σ) : Prop :=
  Program.Alike V (fun w w' o o' => o.1 = o'.1 ∧ keeps w o.2 w' o'.2) w w' (action.program m)
    (action.program m')

variable {keeps mid : W → σ → W → σ → Prop} {w w' : W} {m m' : σ} {action : Action I σ ε α}

theorem alike_pure {a : α} (h : keeps w m w' m') :
    (pure a : Action I σ ε α).Alike V keeps w m w' m' :=
  .done ⟨rfl, h⟩

theorem alike_throw {e : ε} (h : keeps w m w' m') :
    (throw e : Action I σ ε α).Alike V keeps w m w' m' :=
  .done ⟨rfl, h⟩

/-- What is done with the memory that is found. -/
theorem alike_get {next : σ → Action I σ ε α}
    (h : Program.Alike V (fun w w' o o' => o.1 = o'.1 ∧ keeps w o.2 w' o'.2) w w'
      ((next m).program m) ((next m').program m')) :
    (get >>= next).Alike V keeps w m w' m' := by
  rw [Action.Alike, program_bind, program_bind]
  exact h

theorem alike_modify {f : σ → σ} (h : keeps w (f m) w' (f m')) :
    (modify f : Action I σ ε Unit).Alike V keeps w m w' m' :=
  .done ⟨rfl, h⟩

theorem alike_ofExcept {wrap : δ → ε} {result : Except δ α} (h : keeps w m w' m') :
    (ofExcept wrap result : Action I σ ε α).Alike V keeps w m w' m' := by
  rw [Action.Alike, program_ofExcept, program_ofExcept]
  exact .done ⟨rfl, h⟩

/-- A question that is noticed, and that is answered the same. -/
theorem alike_ask {q : I.Request} (noticed : ∀ w, V.silent w q = none)
    (agrees : ∀ a a', V.agrees q a a' → a = a') (asks : V.asks q w m w' m')
    (h : ∀ w m w' m', V.resumes q w m w' m' → keeps w m w' m') :
    (ask q : Action I σ ε _).Alike V keeps w m w' m' := by
  rw [Action.Alike, program_ask, program_ask]
  refine .ask (noticed w) (noticed w') asks fun a a' w m w' m' same resumes => ?_
  cases agrees a a' same
  exact .done ⟨rfl, h w m w' m' resumes⟩

theorem Alike.mono (h : action.Alike V mid w m w' m')
    (weaken : ∀ w m w' m', mid w m w' m' → keeps w m w' m') : action.Alike V keeps w m w' m' :=
  Program.Alike.mono h fun _ _ _ _ known => ⟨known.1, weaken _ _ _ _ known.2⟩

theorem alike_bind {next : α → Action I σ ε β} (h : action.Alike V mid w m w' m')
    (rest : ∀ a w m w' m', mid w m w' m' → (next a).Alike V keeps w m w' m')
    (failed : ∀ w m w' m', mid w m w' m' → keeps w m w' m') :
    (action >>= next).Alike V keeps w m w' m' := by
  rw [Action.Alike, program_bind, program_bind]
  refine Program.Alike.bind h ?_
  rintro w w' ⟨result, m⟩ ⟨result', m'⟩ ⟨same, known⟩
  obtain rfl : result = result' := same
  cases result with
  | ok a => exact rest a w m w' m' known
  | error e => exact .done ⟨rfl, failed w m w' m' known⟩

theorem alike_map {f : α → β} (h : action.Alike V keeps w m w' m') :
    (f <$> action).Alike V keeps w m w' m' := by
  rw [Action.Alike, program_map, program_map]
  refine Program.Alike.bind h ?_
  rintro w w' ⟨result, m⟩ ⟨result', m'⟩ ⟨same, known⟩
  obtain rfl : result = result' := same
  exact .done ⟨rfl, known⟩

theorem alike_discard (h : action.Alike V keeps w m w' m') :
    (discard action).Alike V keeps w m w' m' := by
  unfold Functor.discard
  rw [LawfulFunctor.map_const]
  exact alike_map h

theorem alike_mapError {action : Action I σ δ α} {wrap : δ → ε}
    (h : action.Alike V keeps w m w' m') : (action.mapError wrap).Alike V keeps w m w' m' := by
  rw [Action.Alike, program_mapError, program_mapError]
  refine Program.Alike.bind h ?_
  rintro w w' ⟨result, m⟩ ⟨result', m'⟩ ⟨same, known⟩
  obtain rfl : result = result' := same
  exact .done ⟨rfl, known⟩

theorem alike_attempt (h : action.Alike V keeps w m w' m') :
    (action.attempt : Action I σ δ _).Alike V keeps w m w' m' := by
  rw [Action.Alike, program_attempt, program_attempt]
  refine Program.Alike.bind h ?_
  rintro w w' ⟨result, m⟩ ⟨result', m'⟩ ⟨same, known⟩
  obtain rfl : result = result' := same
  exact .done ⟨rfl, known⟩

theorem alike_tryCatch {handle : ε → Action I σ ε α} (h : action.Alike V mid w m w' m')
    (rest : ∀ e w m w' m', mid w m w' m' → (handle e).Alike V keeps w m w' m')
    (done : ∀ w m w' m', mid w m w' m' → keeps w m w' m') :
    (tryCatch action handle).Alike V keeps w m w' m' := by
  rw [Action.Alike, program_tryCatch, program_tryCatch]
  refine Program.Alike.bind h ?_
  rintro w w' ⟨result, m⟩ ⟨result', m'⟩ ⟨same, known⟩
  obtain rfl : result = result' := same
  cases result with
  | ok a => exact .done ⟨rfl, done w m w' m' known⟩
  | error e => exact rest e w m w' m' known

end Action

end AtomicCommit

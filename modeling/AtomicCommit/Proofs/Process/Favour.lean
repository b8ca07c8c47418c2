import AtomicCommit.Proofs.Process.Calm

/-!
# Calls that are answered well

Some answers are good for a call: nothing fails, and whoever is asked replies. A call that is given
only such answers may have to come to a good end. While it rests others may run, and their answers
may be bad; the discipline keeps them from undoing what the call relies on.

## Main definitions

* `Moment.Hears`: what is answered at a moment is so.
* `Aim`: which answers are good, and what a call comes to with them.
* `Discipline.favoured`: the contract of a call that is answered well.
* `Discipline.Prospers`: some calls of a process come to what they aim at.

## Main results

* `Discipline.Prospers.step`: they go on to as long as they are answered well.
-/

namespace AtomicCommit

/-- What is answered at a moment is so. -/
def Moment.Hears {R : Role} (P : (q : R.Request) → R.Answer q → Prop) (m : Moment R) : Prop :=
  ∀ q a, m.event = .answered q a → P q a

instance {R : Role} (P : (q : R.Request) → R.Answer q → Prop) [∀ q a, Decidable (P q a)]
    (m : Moment R) : Decidable (m.Hears P) :=
  match m with
  | ⟨_, .answered q a, _⟩ =>
    decidable_of_iff (P q a) ⟨by rintro h _ _ ⟨⟩; exact h, fun h => h q a rfl⟩
  | ⟨_, .started _, _⟩ | ⟨_, .asked _, _⟩ | ⟨_, .returned _ _, _⟩ =>
    isTrue fun _ _ event => by cases event

/-- What some calls aim at. -/
structure Aim (R : Role) where
  /-- The answers that are good. -/
  Good : (q : R.Request) → R.Answer q → Prop
  /-- What is true of a question or a result after a past. -/
  Fits : List (Moment R) → Moment R → Prop

namespace Discipline

variable {R : Role} (D : Discipline R) (A : Aim R)

/-- The contract of a call that is answered well. -/
def favoured (call : ℕ) (op : R.Operation) :
    Contract (R.interface.sharing R.Memory) (Scene R) where
  asks s q := A.Fits s.past ⟨call, .asked q.1, s.log⟩
  answers s q a s' := (D.contract call op).answers s q a s' ∧ A.Good q.1 a.1

/-- The end of a call that is answered well. -/
def Succeeds (call : ℕ) (op : R.Operation) (outcome : R.Result op × R.Memory) (s : Scene R) :
    Prop :=
  A.Fits s.past ⟨call, .returned op outcome.1, s.log⟩

/-- A moment was fit when it came. -/
def Fitted (past : List (Moment R)) (m : Moment R) : Prop :=
  ∃ before, before ++ [m] <+: past ∧ A.Fits before m

/-- A resting call that is answered well goes on under its contract. -/
def Thrives (s : Scene R) (call : ℕ) (t : Thread R) : Prop :=
  ∀ a s', D.Resumes call t.operation s t.question a s' → A.Good t.question a.1 →
    (t.next a).Meets (D.favoured A call t.operation) (Succeeds A call t.operation) s'

/-- Some calls of a process come to what they aim at. -/
structure Prospers (covers : ℕ → R.Operation → Prop) (n : Node R) : Prop where
  /-- While they rest. -/
  rests : ∀ call t, n.threads call = some t → covers call t.operation →
    D.Thrives A n.toScene call t
  /-- Whenever they ask, also where no answer can come. -/
  asks : ∀ call op q log log', ⟨call, .started op, log⟩ ∈ n.past → covers call op →
    ⟨call, .asked q, log'⟩ ∈ n.past → Fitted A n.past ⟨call, .asked q, log'⟩
  /-- When they end. -/
  ends : ∀ call op result log, ⟨call, .returned op result, log⟩ ∈ n.past → covers call op →
    Fitted A n.past ⟨call, .returned op result, log⟩

variable {D A} {covers : ℕ → R.Operation → Prop} {n n' : Node R} {call : ℕ} {op : R.Operation}

theorem Fitted.mono {past later : List (Moment R)} {m : Moment R} (h : Fitted A past m)
    (sub : past <+: later) : Fitted A later m := by
  obtain ⟨before, init, fits⟩ := h
  exact ⟨before, init.trans sub, fits⟩

/-- Where every question is fit, what holds under the discipline holds of a call that is answered
well. -/
theorem meets_favoured {α : Type} {post : α → Scene R → Prop}
    {p : Program (R.interface.sharing R.Memory) α} {s : Scene R}
    (h : p.Meets (D.contract call op) post s)
    (fits : ∀ past q log, A.Fits past ⟨call, .asked q, log⟩) :
    p.Meets (D.favoured A call op) post s :=
  h.of_contract (fun s q _ => fits s.past q.1 s.log) fun _ _ _ _ answered => answered.1

/-- What others may do does not disturb a call that is answered well. -/
theorem Thrives.of_rely (lawful : D.Lawful) {s s' : Scene R} {t : Thread R}
    (h : D.Thrives A s call t) (rely : Rely call (D.claims s.past call t.operation) s s') :
    D.Thrives A s' call t := by
  obtain ⟨later, past, others⟩ := rely.past
  have claims : D.claims s'.past call t.operation = D.claims s.past call t.operation := by
    rw [past, lawful.claims_append_others others]
  exact fun a s'' resumes => h a s'' (resumes.of_rely claims rely)

/-- Calls that have not started come to what they aim at. -/
theorem Prospers.of_new (holds : D.Holds n)
    (new : ∀ call op, covers call op → ∀ m ∈ n.past, m.call ≠ call) : D.Prospers A covers n where
  rests call t rests covered := by
    obtain ⟨log, started⟩ := (holds.waits call t rests).started
    exact absurd rfl (new call t.operation covered _ started)
  asks call op q log log' started covered _ := absurd rfl (new call op covered _ started)
  ends call op result log returned covered := absurd rfl (new call op covered _ returned)

/-- A call that runs under the contract of those that are answered well. -/
theorem Prospers.settle (lawful : D.Lawful) (h : D.Prospers A covers n) {s : Scene R}
    {p : R.Run op} {event : Event R} (runs : D.Runs n call op s)
    (past : s.past = n.past ++ [⟨call, event, s.log⟩])
    (quiet : ∀ op result, event ≠ .returned op result) (unasked : ∀ q, event ≠ .asked q)
    (obeys : p.Meets (D.contract call op) (D.Ends call op) s)
    (meets : covers call op → p.Meets (D.favoured A call op) (Succeeds A call op) s) :
    D.Prospers A covers (Node.settle s n.threads call op p) := by
  have grown : n.past <+: (Node.settle s n.threads call op p).past := by
    obtain ⟨event', past', -⟩ := Node.settle_past s n.threads call op p
    rw [past', past, List.append_assoc]
    exact List.prefix_append _ _
  constructor
  · intro other t rests covered
    rcases Node.cases_of_rests_settle rests with ⟨ne, rests⟩ | ⟨rfl, q, next, rfl, rfl⟩
    · exact (h.rests other t rests covered).of_rely lawful (runs.rely_settle obeys rests ne)
    · exact fun a s' resumes good => (meets covered).2 a s' ⟨resumes, good⟩
  · intro other op' q log log' started covered asked
    have begun := Node.started_of_settle started
    rcases Node.cases_of_asked_settle asked with old | ⟨request, next, rfl, last⟩
    · rw [past] at old begun
      rcases List.mem_append.1 old with before | last
      · rcases List.mem_append.1 begun with begun | last
        · exact (h.asks _ _ _ _ _ begun covered before).mono grown
        · -- a call that has just started has asked nothing
          cases List.mem_singleton.1 last
          have chronicle := runs.chronicle
          rw [past] at chronicle
          exact (chronicle.follows_last ⟨call, .asked q, log'⟩ before rfl).elim
      · cases List.mem_singleton.1 last
        exact absurd rfl (unasked q)
    · cases last
      obtain ⟨log₀, own⟩ := runs.started
      obtain rfl := runs.chronicle.started_unique own begun
      exact ⟨s.past, List.prefix_rfl, (meets covered).1⟩
  · intro call' op' result log returned covered
    rcases Node.cases_of_returned_settle returned with old | ⟨outcome, rfl, last⟩
    · rw [past] at old
      rcases List.mem_append.1 old with old | last
      · exact (h.ends _ _ _ _ old covered).mono grown
      · cases List.mem_singleton.1 last
        exact absurd rfl (quiet op' result)
    · cases last
      exact ⟨s.past, List.prefix_rfl, meets covered⟩

/-- Calls that come to what they aim at go on to, as long as they are answered well. -/
theorem Prospers.step (lawful : D.Lawful) (obeyed : D.Obeyed)
    {allows : R.Operation → Moment R → Prop} (holds : D.Holds n) (h : D.Prospers A covers n)
    (step : n.Step allows n')
    (tolerates : D.Tolerates n allows)
    (aims : ∀ call op, allows op ⟨call, .started op, n.log⟩ → covers call op →
      (∀ m ∈ n.past, m.call ≠ call) →
      (R.program op n.memory).Meets (D.favoured A call op) (Succeeds A call op)
        (n.note call (.started op)))
    (good : ∀ call t a log, n.threads call = some t → covers call t.operation →
      allows t.operation ⟨call, .answered t.question a, log⟩ → A.Good t.question a) :
    D.Prospers A covers n' := by
  cases step with
  | @start call op new allowed =>
    have justified := tolerates.starts _ _ _ allowed
    have runs := Runs.start holds new justified (tolerates.free _ _ allowed)
    exact h.settle lawful runs rfl (by simp) (by simp)
      (obeyed n.toScene call op holds.toSound new justified)
      fun covered => aims call op allowed covered new
  | @answer call t a log rests host allowed =>
    have justified := tolerates.answers _ _ _ _ _ allowed
    have runs := Runs.answer lawful holds rests host justified (tolerates.free _ _ allowed)
    have resumes := Resumes.answer holds host justified
    exact h.settle lawful runs rfl (by simp) (by simp)
      ((holds.waits call t rests).resumes _ _ resumes)
      fun covered => h.rests call t rests covered _ _ resumes
        (good call t a log rests covered allowed)
  | restart => exact ⟨fun _ _ rests => (nomatch rests), h.asks, h.ends⟩
  | @share e other =>
    refine ⟨fun call t rests covered => ?_, h.asks, h.ends⟩
    exact (h.rests call t rests covered).of_rely lawful (.share other _)

/-- The end of a covered call was fit after what had come before it, and the log at its start is
known. -/
theorem Prospers.returned (chronicle : D.Chronicle n.past) (h : D.Prospers A covers n)
    (covered : covers call op) {log log' : List Entry}
    (started : ⟨call, .started op, log⟩ ∈ n.past) {result : R.Result op}
    (returned : ⟨call, .returned op result, log'⟩ ∈ n.past) :
    ∃ before, before <+: n.past ∧ A.Fits before ⟨call, .returned op result, log'⟩ ∧
      (momentsOf before call).head? = some ⟨call, .started op, log⟩ := by
  obtain ⟨before, sub, fits⟩ := h.ends _ _ _ _ returned covered
  have past := chronicle.of_prefix sub
  obtain ⟨log₁, started₁⟩ := past.follows_last
  have first := chronicle.head_of_started started
  rw [chronicle.head_of_started (((List.prefix_append _ _).trans sub).subset started₁)] at first
  cases first
  exact ⟨before, (List.prefix_append _ _).trans sub, fits,
    past.last.1.head_of_started started₁⟩

end Discipline

/-- The first moment of a call that has started is its start. -/
theorem Scene.head_of_note_started {R : Role} {s : Scene R} {call : ℕ} {op : R.Operation}
    (new : ∀ m ∈ s.past, m.call ≠ call) {past : List (Moment R)}
    (sub : (s.note call (.started op)).past <+: past) :
    (momentsOf past call).head? = some ⟨call, .started op, s.log⟩ := by
  have own : momentsOf (s.note call (.started op)).past call = [⟨call, .started op, s.log⟩] := by
    rw [Scene.note, momentsOf_append, momentsOf_others new, momentsOf_own rfl, List.nil_append]
  obtain ⟨later, rfl⟩ := sub
  rw [momentsOf_append, own]
  rfl

end AtomicCommit

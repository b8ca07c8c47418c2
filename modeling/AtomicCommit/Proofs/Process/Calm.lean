import AtomicCommit.Proofs.Process.Discipline

/-!
# A call between two questions

Whenever a call is answered it finds all transactions in order, and those that it held while it
rested just as it left them. If the answer is that an entry has been stored, the history of the
entry's transaction is longer by it, and all other transactions are in order.

## Main definitions

* `Discipline.Calm`: all transactions are in order.
* `Discipline.Regains`: what a call finds after a question that has stored nothing.
* `Discipline.Stores`: what it finds after one that has stored an entry.
* `Discipline.Steady`: nothing that the resting calls claim has changed since they asked.
-/

namespace AtomicCommit

namespace Discipline

variable {R : Role} {D : Discipline R} {call : ℕ} {op : R.Operation} {s s' : Scene R}
  {memory memory' : R.Memory} {tx : TransactionId}

/-- A call that has started has all transactions in order. -/
structure Calm (D : Discipline R) (call : ℕ) (op : R.Operation) (s : Scene R) (memory : R.Memory) :
    Prop extends D.Leaves call op s memory where
  /-- The call has started. -/
  started : ∃ log, ⟨call, .started op, log⟩ ∈ s.past

/-- How a call goes on after a question that has stored nothing. -/
structure Regains (D : Discipline R) (call : ℕ) (op : R.Operation) (s : Scene R)
    (memory : R.Memory) (q : R.Request) (a : R.Answer q) (s' : Scene R) (memory' : R.Memory) :
    Prop extends D.Calm call op s' memory', s.Grows s' where
  /-- The answer is noted. -/
  noted : ⟨call, .answered q a, s'.log⟩ ∈ s'.past
  /-- Nothing else is new in the call. -/
  own : momentsOf s'.past call =
    momentsOf s.past call ++ [⟨call, .asked q, s.log⟩, ⟨call, .answered q a, s'.log⟩]
  /-- The answer fits the log. -/
  host : R.Answers s'.log q a s'.log
  /-- The histories held are as they were. -/
  history : ∀ tx ∈ D.held s call op q,
    Log.history s'.log R.name tx = Log.history s.log R.name tx
  /-- The copies held are as they were. -/
  copies : ∀ tx ∈ D.held s call op q, memory'.get? tx = memory.get? tx

/-- How a call goes on once an entry is stored. -/
structure Stores (D : Discipline R) (call : ℕ) (op : R.Operation) (s : Scene R) (memory : R.Memory)
    (e : Entry) (s' : Scene R) (memory' : R.Memory) : Prop extends s.Grows s' where
  /-- All other transactions are in order. -/
  others : ∀ tx, tx ≠ e.transaction → D.KeptIn s' memory' tx
  /-- The memory is as it was found. -/
  found : memory' = s'.memory
  /-- The call has started. -/
  started : ∃ log, ⟨call, .started op, log⟩ ∈ s'.past
  /-- Only the answer is new in the call. -/
  own : momentsOf s'.past call = momentsOf s.past call ++
    [⟨call, .asked (.inl (.append e)), s.log⟩,
      ⟨call, .answered (.inl (.append e)) (.ok ()), s'.log⟩]
  /-- The entry has been added to its history. -/
  history : Log.history s'.log R.name e.transaction = Log.history s.log R.name e.transaction ++ [e]
  /-- The other histories held are as they were. -/
  histories : ∀ tx ∈ D.held s call op (.inl (.append e)), tx ≠ e.transaction →
    Log.history s'.log R.name tx = Log.history s.log R.name tx
  /-- The copies held are as they were. -/
  copies : ∀ tx ∈ D.held s call op (.inl (.append e)), memory'.get? tx = memory.get? tx

/-- A call starts with all transactions in order. -/
theorem calm_start (lawful : D.Lawful) (sound : D.Sound s) :
    D.Calm call op (s.note call (.started op)) s.memory where
  kept tx := lawful.kept_mono _ _ _ _ _ (sound.kept tx)
  frame _ _ := rfl
  started := ⟨s.log, List.mem_append_right _ (by simp)⟩

theorem Calm.asks (h : D.Calm call op s memory) {q : R.Request}
    (justified : D.Justified s.past ⟨call, .asked q, s.log⟩) (stores : R.stores q = false) :
    (D.contract call op).asks s (q, memory) :=
  ⟨h.toLeaves, justified, fun e he => absurd he (Role.ne_append_of_stores stores e)⟩

/-- After an answer that leaves the log alone all is in order again. -/
theorem Calm.regains (lawful : D.Lawful) (h : D.Calm call op s memory) {q : R.Request}
    {a : R.Answer q × R.Memory} (answers : (D.contract call op).answers s (q, memory) a s')
    (stored : ∀ log log', R.Answers log q a.1 log' → log' = log) :
    D.Regains call op s memory q a.1 s' a.2 := by
  obtain ⟨s₁, log, finds, hm, host, -, rfl⟩ := Resumes.finds answers
  obtain rfl := stored _ _ host
  constructor
  · constructor
    · constructor
      · intro tx
        rw [hm]
        exact lawful.kept_mono _ _ _ _ _ (finds.kept tx)
      · intro tx _
        rw [hm]
        rfl
    · obtain ⟨log, started⟩ := h.started
      exact ⟨log, List.mem_append_left _ (finds.past.subset started)⟩
  · exact ⟨finds.past.trans (List.prefix_append _ _), finds.log⟩
  · exact List.mem_append_right _ (.head _)
  · exact finds.own_answered
  · exact host
  · exact finds.history
  · intro tx claimed
    rw [hm]
    exact finds.memory tx claimed

theorem answers_of_not_append {q : R.Request} (stores : R.stores q = false) {a : R.Answer q} :
    ∀ log log', R.Answers log q a log' → log' = log := by
  intro log log' host
  obtain same | ⟨e, he, -⟩ := Role.answers_log host
  · exact same
  · exact absurd he (Role.ne_append_of_stores stores e)

/-- A question that stores nothing. -/
theorem Calm.meets_ask (lawful : D.Lawful) {q : R.Request} {ε : Type}
    {ok : R.Answer q → R.Memory → Scene R → Prop} {err : ε → R.Memory → Scene R → Prop}
    (h : D.Calm call op s memory) (stores : R.stores q = false)
    (justified : D.Justified s.past ⟨call, .asked q, s.log⟩)
    (next : ∀ a memory' s', D.Regains call op s memory q a s' memory' → ok a memory' s') :
    (Action.ask q : Action R.interface R.Memory ε _).Meets (D.contract call op) ok err
      memory s := by
  rw [Action.meets_ask]
  exact ⟨h.asks justified stores, fun a memory' s' answers =>
    next a memory' s' (h.regains lawful answers (answers_of_not_append stores))⟩

/-- After an answer that an entry has been stored. -/
theorem Calm.stores (lawful : D.Lawful) (h : D.Calm call op s memory) {e : Entry}
    (own : e.actor = R.name) (held : e.transaction ∈ D.held s call op (.inl (.append e)))
    (answers : (D.contract call op).answers s (.inl (.append e), memory) (.ok (), memory') s') :
    D.Stores call op s memory e s' memory' := by
  obtain ⟨s₁, log, finds, rfl, host, -, rfl⟩ := Resumes.finds answers
  obtain rfl : log = s₁.log ++ [e] := host
  refine ⟨?_, ?_, rfl, ?_, finds.own_answered, ?_, ?_, finds.memory⟩
  · exact ⟨finds.past.trans (List.prefix_append _ _), finds.log.trans (List.prefix_append _ _)⟩
  · intro tx ne
    have same : Log.history (s₁.log ++ [e]) R.name tx = Log.history s₁.log R.name tx :=
      Log.history_append_other s₁.log fun _ => ne.symm
    simp only [KeptIn, Scene.note, same]
    exact lawful.kept_mono _ _ _ _ _ (finds.kept tx)
  · obtain ⟨log, started⟩ := h.started
    exact ⟨log, List.mem_append_left _ (finds.past.subset started)⟩
  · refine (Log.history_append_own s₁.log own rfl).trans ?_
    rw [finds.history _ held]
  · intro tx claimed ne
    refine (Log.history_append_other s₁.log fun _ => ne.symm).trans ?_
    exact finds.history tx claimed

/-- To store an entry of a transaction that the call holds. -/
theorem Calm.meets_append (lawful : D.Lawful) {e : Entry} {ok : Unit → R.Memory → Scene R → Prop}
    {err : LogError → R.Memory → Scene R → Prop} (h : D.Calm call op s memory)
    (own : e.actor = R.name)
    (held : e.transaction ∈ D.held s call op (.inl (.append e)))
    (justified : D.Justified s.past ⟨call, .asked (.inl (.append e)), s.log⟩)
    (stored : ∀ memory' s', D.Stores call op s memory e s' memory' → ok () memory' s')
    (missed : ∀ failure memory' s',
      D.Regains call op s memory (.inl (.append e)) (.error failure) s' memory' →
      err failure memory' s') :
    (Host.append e : Action R.interface R.Memory LogError Unit).Meets (D.contract call op) ok err
      memory s := by
  rw [Host.meets_append]
  refine ⟨⟨h.toLeaves, justified, ?_⟩, ?_⟩
  · rintro e' eq
    cases eq
    exact ⟨own, held⟩
  intro a memory' s' answers
  constructor
  · rintro ⟨⟩ rfl
    exact stored _ _ (h.stores lawful own held answers)
  · rintro failure rfl
    exact missed failure _ _ (h.regains lawful answers fun log log' host => host)

/-! ## What rests in a run -/

section Runs

variable {n n' : Node R} {allows : R.Operation → Moment R → Prop}

/-- What the resting calls claim is as it was when they asked. -/
def Steady (D : Discipline R) (n : Node R) : Prop :=
  ∀ call t, n.threads call = some t →
    ∃ log, lastOf n.past call = some ⟨call, .asked t.question, log⟩ ∧
      ∀ tx ∈ D.claims n.past call t.operation,
        Log.history n.log R.name tx = Log.history log R.name tx

/-- A call that settles leaves alone whoever rests, or rests itself at what it asks. -/
theorem Runs.cases_of_rests {s : Scene R} (h : D.Runs n call op s) {p : R.Run op}
    (meets : p.Meets (D.contract call op) (D.Ends call op) s) {other : ℕ} {t : Thread R}
    (rests : (Node.settle s n.threads call op p).threads other = some t) :
    n.threads other = some t ∧ Rely other (D.claims n.past other t.operation) n.toScene
        (Node.settle s n.threads call op p).toScene ∨
      lastOf (Node.settle s n.threads call op p).past other =
        some ⟨other, .asked t.question, (Node.settle s n.threads call op p).log⟩ := by
  rcases Node.cases_of_rests_settle rests with ⟨ne, rests⟩ | ⟨rfl, q, next, rfl, rfl⟩
  · exact .inl ⟨rests, h.rely_settle meets rests ne⟩
  · exact .inr (lastOf_append_own s.past ⟨other, .asked q.1, s.log⟩)

/-- A call that rests after a step has been left alone in it, or has just asked. -/
theorem Holds.cases_of_rests (holds : D.Holds n) (lawful : D.Lawful) (obeyed : D.Obeyed)
    (step : n.Step allows n') (tolerates : D.Tolerates n allows) {other : ℕ} {t : Thread R}
    (rests : n'.threads other = some t) :
    n.threads other = some t ∧
        Rely other (D.claims n.past other t.operation) n.toScene n'.toScene ∨
      lastOf n'.past other = some ⟨other, .asked t.question, n'.log⟩ := by
  cases step with
  | @start call op new allowed =>
    have justified := tolerates.starts _ _ _ allowed
    have runs := Runs.start holds new justified (tolerates.free _ _ allowed)
    exact runs.cases_of_rests (obeyed n.toScene call op holds.toSound new justified) rests
  | @answer call t' a log rests' host allowed =>
    have justified := tolerates.answers _ _ _ _ _ allowed
    have runs := Runs.answer lawful holds rests' host justified (tolerates.free _ _ allowed)
    exact runs.cases_of_rests
      ((holds.waits call t' rests').resumes _ _ (.answer holds host justified)) rests
  | restart => cases rests
  | @share e other => exact .inl ⟨rests, .share other _⟩

/-- What the resting calls claim stays as it was when they asked. -/
theorem Steady.step (steady : D.Steady n) (holds : D.Holds n) (lawful : D.Lawful)
    (obeyed : D.Obeyed) (step : n.Step allows n') (tolerates : D.Tolerates n allows) :
    D.Steady n' := by
  intro call t rests
  rcases holds.cases_of_rests lawful obeyed step tolerates rests with ⟨rests, rely⟩ | asked
  · obtain ⟨log, asked, same⟩ := steady call t rests
    obtain ⟨later, past, others⟩ := rely.past
    rw [past, lawful.claims_append_others others, lastOf_append_other _ others]
    exact ⟨log, asked, fun tx claimed => (rely.history tx claimed).trans (same tx claimed)⟩
  · exact ⟨n'.log, asked, fun _ _ => rfl⟩

end Runs

end Discipline

end AtomicCommit

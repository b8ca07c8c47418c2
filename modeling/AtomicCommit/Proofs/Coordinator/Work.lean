import AtomicCommit.Proofs.Coordinator.Transition
import AtomicCommit.Proofs.Process.Calm

/-!
# A coordinator's call at work

Between two questions a call has all transactions in order, or is at work on one: that one is
logged, cached and claimed, and all others are in order. Each kind of question leads from one such
state to another, and `transition` is the only step that takes a transaction further.

## Main definitions

* `Coordinator.Calm`: all transactions are in order.
* `Coordinator.Works`: all transactions but one are in order, and that one is logged and cached.
* `Coordinator.Reaches`: a call has gone on and is at work on one transaction.

## Main results

* `Coordinator.meets_transition`: what comes of a single step of a transaction.
-/

namespace AtomicCommit.Coordinator

/-- A call that has failed at nothing vital has all transactions in order. -/
structure Calm (c : Coordinator) (call : ℕ) (op : Operation) (s : Scene c.role) (memory : Memory) :
    Prop extends c.discipline.Calm call op s memory where
  /-- The call has failed at nothing vital. -/
  unfailed : ¬c.Failed s.past call

/-- A call that has started and failed at nothing vital is at work on a transaction. -/
structure Works (c : Coordinator) (call : ℕ) (op : Operation) (s : Scene c.role)
    (memory : Memory) (t : Transaction) : Prop where
  /-- All other transactions are in order. -/
  others : ∀ tx, tx ≠ t.id → c.discipline.KeptIn s memory tx
  /-- Those that the call does not claim are as they were. -/
  frame : ∀ tx, tx ∉ c.claims s.past call op → memory.get? tx = s.memory.get? tx
  /-- The call has started. -/
  started : ∃ log, ⟨call, .started op, log⟩ ∈ s.past
  /-- It has failed at nothing vital. -/
  unfailed : ¬c.Failed s.past call
  /-- The transaction is claimed. -/
  claimed : t.id ∈ c.claims s.past call op
  /-- Its identifier was drawn. -/
  drawn : ∃ call, c.Drawn s.past call t.id
  /-- It is logged. -/
  logged : c.Logged s.log t
  /-- It is cached. -/
  cached : memory.get? t.id = some t

variable {self : Coordinator} {call : ℕ} {op : Operation} {s s' : Scene self.role}
  {memory memory' : Memory} {t : Transaction} {tx : TransactionId}

/-- A call keeps its claims while it rests. -/
theorem claims_asked {q : self.role.Request} (claimed : tx ∈ self.claims s.past call op) :
    tx ∈ self.discipline.held s call op q :=
  claims_mono (List.prefix_append _ _) claimed

theorem Calm.entitled (h : self.Calm call op s memory) (claimed : tx ∈ self.claims s.past call op) :
    self.Entitled s.past call tx := by
  obtain ⟨log, started⟩ := h.started
  exact ⟨op, log, started, claimed⟩

/-- A call at work on an unfinished transaction may rest. -/
theorem Works.calm (h : self.Works call op s memory t) (unfinished : t.state ≠ .done) :
    self.Calm call op s memory where
  kept tx := by
    by_cases ne : tx = t.id
    · subst ne
      refine .known rfl h.logged h.drawn fun t' ht' => ?_
      rw [h.cached, Option.some.injEq] at ht'
      exact ⟨ht'.symm, unfinished⟩
    · exact h.others tx ne
  frame := h.frame
  started := h.started
  unfailed := h.unfailed

/-- What is cached is logged and unfinished. -/
theorem Calm.of_cached (h : self.Calm call op s memory) (cached : memory.get? tx = some t) :
    t.id = tx ∧ self.Logged s.log t ∧ t.state ≠ .done ∧ ∃ call, self.Drawn s.past call tx := by
  cases h.kept tx with
  | unknown _ none => simp [none] at cached
  | @known t' id replay drawn copy =>
    obtain ⟨rfl, unfinished⟩ := copy t cached
    exact ⟨id, by rw [Logged, id]; exact replay, unfinished, drawn⟩

/-- A call takes up a cached transaction that it claims. -/
theorem Calm.works (h : self.Calm call op s memory) (claimed : t.id ∈ self.claims s.past call op)
    (cached : memory.get? t.id = some t) : self.Works call op s memory t where
  others tx _ := h.kept tx
  frame := h.frame
  started := h.started
  unfailed := h.unfailed
  claimed := claimed
  drawn := (h.of_cached cached).2.2.2
  logged := (h.of_cached cached).2.1
  cached := cached

/-- A call puts a transaction down by dropping it from memory. -/
theorem Works.erase (h : self.Works call op s memory t) :
    self.Calm call op s (memory.erase t.id) where
  kept tx := by
    by_cases ne : tx = t.id
    · subst ne
      exact .known rfl h.logged h.drawn (by simp [SortedMap.get?_erase])
    · simpa only [Discipline.KeptIn, SortedMap.get?_erase, if_neg ne] using h.others tx ne
  frame tx unclaimed := by
    have ne : tx ≠ t.id := fun eq => unclaimed (eq ▸ h.claimed)
    rw [SortedMap.get?_erase, if_neg ne]
    exact h.frame tx unclaimed
  started := h.started
  unfailed := h.unfailed

/-! ## Questions that store nothing -/

/-- How a call goes on after a question that has stored nothing and failed at nothing vital. -/
structure Regains (c : Coordinator) (call : ℕ) (op : Operation) (s : Scene c.role)
    (memory : Memory) (q : c.role.Request) (a : c.role.Answer q) (s' : Scene c.role)
    (memory' : Memory) : Prop extends c.discipline.Regains call op s memory q a s' memory' where
  /-- The call has failed at nothing vital. -/
  unfailed : ¬c.Failed s'.past call

theorem Regains.calm {q : self.role.Request} {a : self.role.Answer q}
    (h : self.Regains call op s memory q a s' memory') : self.Calm call op s' memory' :=
  { h.toCalm with unfailed := h.unfailed }

/-- A call has failed at something vital only where it had before or was just told so. -/
theorem unfailed_of_own {q : self.role.Request} {a : self.role.Answer q}
    (unfailed : ¬self.Failed s.past call)
    (own : momentsOf s'.past call =
      momentsOf s.past call ++ [⟨call, .asked q, s.log⟩, ⟨call, .answered q a, s'.log⟩])
    (excused : ∀ e failure, e.isVital = true → q = .inl (.append e) →
      ¬HEq a (.error failure : Except LogError Unit)) : ¬self.Failed s'.past call := by
  rintro ⟨e, failure, log, vital, h⟩
  rcases mem_or_of_momentsOf own h rfl with h | h
  · exact unfailed ⟨e, failure, log, vital, h⟩
  · simp only [List.mem_cons, Moment.mk.injEq, reduceCtorEq, false_and, and_false, false_or,
      List.not_mem_nil, or_false] at h
    cases h.2.1
    exact excused e failure vital rfl HEq.rfl

theorem Regains.of_not_append {q : self.role.Request} {a : self.role.Answer q}
    (h : self.discipline.Regains call op s memory q a s' memory')
    (unfailed : ¬self.Failed s.past call) (stores : self.role.stores q = false) :
    self.Regains call op s memory q a s' memory' :=
  { h with
    unfailed := unfailed_of_own unfailed h.own fun e _ _ he =>
      absurd he (Role.ne_append_of_stores stores e) }

theorem Calm.asks (h : self.Calm call op s memory) {q : self.role.Request}
    (stores : self.role.stores q = false) (asks : self.Asks s.past s.log call q) :
    (self.discipline.contract call op).asks s (q, memory) :=
  h.toCalm.asks ⟨h.unfailed, asks⟩ stores

/-- After a question that stores nothing all is in order again. -/
theorem Calm.regains (h : self.Calm call op s memory) {q : self.role.Request}
    {a : self.role.Answer q × Memory}
    (answers : (self.discipline.contract call op).answers s (q, memory) a s')
    (stores : self.role.stores q = false) : self.Regains call op s memory q a.1 s' a.2 :=
  .of_not_append (h.toCalm.regains discipline_lawful answers
    (Discipline.answers_of_not_append stores)) h.unfailed stores

/-- A question that stores nothing. -/
theorem Calm.meets_ask {q : self.role.Request} {ε : Type}
    {ok : self.role.Answer q → Memory → Scene self.role → Prop}
    {err : ε → Memory → Scene self.role → Prop} (h : self.Calm call op s memory)
    (stores : self.role.stores q = false) (asks : self.Asks s.past s.log call q)
    (next : ∀ a memory' s', self.Regains call op s memory q a s' memory' → ok a memory' s') :
    (Action.ask q : Action interface Memory ε _).Meets (self.discipline.contract call op) ok err
      memory s :=
  h.toCalm.meets_ask discipline_lawful stores ⟨h.unfailed, asks⟩ fun a memory' s' regains =>
    next a memory' s' (.of_not_append regains h.unfailed stores)

/-! ## What a call changes -/

/-- What changes while a call is at work on a transaction: of all that it claims, only that one
comes further. -/
structure Leads (c : Coordinator) (call : ℕ) (op : Operation) (tx : TransactionId)
    (s s' : Scene c.role) : Prop extends s.Grows s' where
  /-- The other histories claimed are as they were. -/
  history : ∀ tx' ∈ c.claims s.past call op, tx' ≠ tx →
    Log.history s'.log c.id tx' = Log.history s.log c.id tx'

theorem Leads.refl (s : Scene self.role) : self.Leads call op tx s s :=
  ⟨.refl s, fun _ _ _ => rfl⟩

theorem Leads.trans {s₁ s₂ s₃ : Scene self.role} (h : self.Leads call op tx s₁ s₂)
    (h' : self.Leads call op tx s₂ s₃) : self.Leads call op tx s₁ s₃ where
  toGrows := h.toGrows.trans h'.toGrows
  history tx' claimed ne :=
    (h'.history tx' (claims_mono h.past claimed) ne).trans (h.history tx' claimed ne)

theorem Regains.leads {q : self.role.Request} {a : self.role.Answer q}
    (h : self.Regains call op s memory q a s' memory') : self.Leads call op tx s s' where
  toGrows := h.toGrows
  history tx' claimed _ := h.history tx' (claims_asked claimed)

theorem Works.regains {q : self.role.Request} {a : self.role.Answer q}
    (h : self.Works call op s memory t) (regains : self.Regains call op s memory q a s' memory') :
    self.Works call op s' memory' t :=
  regains.calm.works (claims_mono regains.past h.claimed)
    ((regains.copies t.id (claims_asked h.claimed)).trans h.cached)

/-- A call has gone on since a scene and is at work on one transaction. -/
structure Reaches (c : Coordinator) (call : ℕ) (op : Operation) (s : Scene c.role)
    (tx : TransactionId) (t : Transaction) (memory : Memory) (s' : Scene c.role) : Prop
    extends c.Works call op s' memory t, c.Leads call op tx s s' where
  /-- The transaction. -/
  about : t.id = tx

theorem Works.reaches (h : self.Works call op s memory t) :
    self.Reaches call op s t.id t memory s :=
  { h, Leads.refl s with about := rfl }

theorem Reaches.next {s'' : Scene self.role} {t' : Transaction}
    (h : self.Reaches call op s tx t memory s') (works : self.Works call op s'' memory' t')
    (leads : self.Leads call op t.id s' s'') (same : t'.id = t.id) :
    self.Reaches call op s tx t' memory' s'' :=
  { works, h.toLeads.trans (h.about ▸ leads) with about := same.trans h.about }

theorem Reaches.trans {s'' : Scene self.role} {t' : Transaction}
    (h : self.Reaches call op s tx t memory s') (h' : self.Reaches call op s' t.id t' memory' s'') :
    self.Reaches call op s tx t' memory' s'' :=
  h.next h'.toWorks h'.toLeads h'.about

theorem Works.meets_ask {q : self.role.Request} {ε : Type}
    {ok : self.role.Answer q → Memory → Scene self.role → Prop}
    {err : ε → Memory → Scene self.role → Prop} (h : self.Works call op s memory t)
    (unfinished : t.state ≠ .done) (stores : self.role.stores q = false)
    (asks : self.Asks s.past s.log call q)
    (next : ∀ a memory' s', self.Works call op s' memory' t → self.Leads call op t.id s s' →
      ⟨call, .answered q a, s'.log⟩ ∈ s'.past → ok a memory' s') :
    (Action.ask q : Action interface Memory ε _).Meets (self.discipline.contract call op) ok err
      memory s :=
  (h.calm unfinished).meets_ask stores asks fun a memory' s' regains =>
    next a memory' s' (h.regains regains) regains.leads regains.noted

/-! ## Entries -/

theorem Stores.leads {e : Entry} (h : self.discipline.Stores call op s memory e s' memory') :
    self.Leads call op e.transaction s s' where
  toGrows := h.toGrows
  history tx claimed ne := h.histories tx (claims_asked claimed) ne

/-- The call caches what its entry leads to. -/
theorem Works.of_stores {e : Entry} (h : self.discipline.Stores call op s memory e s' memory')
    (unfailed : ¬self.Failed s.past call) (id : t.id = e.transaction)
    (claimed : t.id ∈ self.claims s.past call op)
    (drawn : ∃ call, self.Drawn s.past call t.id)
    (replay : Transaction.replay (Log.history s.log self.id t.id ++ [e]) = .ok t) :
    self.Works call op s' (memory'.insert t.id t) t where
  others tx ne := by
    simpa only [Discipline.KeptIn, SortedMap.get?_insert, if_neg ne] using h.others tx (id ▸ ne)
  frame tx unclaimed := by
    have ne : tx ≠ t.id := fun eq => unclaimed (eq ▸ claims_mono h.past claimed)
    rw [SortedMap.get?_insert, if_neg ne, h.found]
  started := h.started
  unfailed := unfailed_of_own unfailed h.own fun _ _ _ _ => by rintro ⟨⟩
  claimed := claims_mono h.past claimed
  drawn := by
    obtain ⟨call, drawn⟩ := drawn
    exact ⟨call, drawn.mono h.past⟩
  logged := by
    rw [Logged, id, h.history, ← id]
    exact replay
  cached := by simp

/-- A call has failed to store an entry that its transaction can not go on without, and so fails. -/
structure Misses (c : Coordinator) (call : ℕ) (s : Scene c.role) (failure : CommitError)
    (s' : Scene c.role) : Prop extends s.Grows s' where
  /-- The log has refused the entry. -/
  refused : ∃ cause, failure = .log cause
  /-- That is noted. -/
  noted : c.Failed s'.past call

theorem Misses.of_grows {failure : CommitError} (h : self.Misses call s failure s')
    {s₀ : Scene self.role} (grows : s₀.Grows s) : self.Misses call s₀ failure s' :=
  { h with toGrows := grows.trans h.toGrows }

theorem Calm.meets_append {e : Entry} {ok : Unit → Memory → Scene self.role → Prop}
    {err : LogError → Memory → Scene self.role → Prop} (h : self.Calm call op s memory)
    (own : e.actor = self.id) (claimed : e.transaction ∈ self.claims s.past call op)
    (extends_ : self.Extends s.past s.log call e)
    (stored : ∀ memory' s', self.discipline.Stores call op s memory e s' memory' →
      ok () memory' s')
    (missed : ∀ failure memory' s', self.discipline.Leaves call op s' memory' →
      (e.isVital = true → self.Misses call s (.log failure) s') →
      (e.isVital = false →
        self.Regains call op s memory (.inl (.append e)) (.error failure) s' memory') →
      err failure memory' s') :
    (Host.append e : Action interface Memory LogError Unit).Meets
      (self.discipline.contract call op) ok err memory s := by
  refine h.toCalm.meets_append discipline_lawful own (claims_asked claimed)
    ⟨h.unfailed, own, h.entitled claimed, extends_⟩ stored ?_
  intro failure memory' s' regains
  refine missed failure memory' s' regains.toLeaves (fun vital => ?_) fun spare =>
    { regains with unfailed := ?_ }
  · exact ⟨regains.toGrows, ⟨failure, rfl⟩, e, failure, s'.log, vital, regains.noted⟩
  refine unfailed_of_own h.unfailed regains.own ?_
  rintro e' failure' vital he -
  cases he
  simp [spare] at vital

/-! ## A step of a transaction -/

/-- A transaction may go on without the step: it is an acknowledgement, or the end. -/
def Spare (next : CoordinatorState) (payload : Payload) : Prop :=
  next = .done ∧ payload = .none ∨ ∃ p, payload = .acknowledged p

theorem Takes.isVital_iff {next : CoordinatorState} {payload : Payload} {e : Entry}
    (h : self.Takes t next payload e) : e.isVital = true ↔ ¬Spare next payload := by
  rw [Entry.isVital, h.carries, h.state]
  cases payload <;> cases next <;> simp [Spare, CoordinatorState.toState]

/-- What comes of a step: the transaction has advanced or had done so before, or the step has
failed. A step that the transaction may go on without leaves the call at work when it fails; another
one, if it is new, fails only because its entry is not stored. -/
theorem meets_transition {next : CoordinatorState} {payload : Payload}
    {ok : Transaction → Memory → Scene self.role → Prop}
    {err : CommitError → Memory → Scene self.role → Prop} (h : self.Works call op s memory t)
    (unfinished : t.state ≠ .done)
    (vote : ∀ p v, payload = .vote p v → self.HeardVote s.past call t.id p v)
    (acknowledged : ∀ p, payload = .acknowledged p → self.HeardAcknowledgement s.past call t.id p)
    (advanced : ∀ memory' s', t.Advances next payload →
      self.Works call op s' memory' (t.record next payload) → self.Leads call op t.id s s' →
      ok (t.record next payload) memory' s')
    (repeated : ∀ memory' s', t.Repeats next payload → self.Works call op s' memory' t →
      self.Leads call op t.id s s' → ok t memory' s')
    (failed : ∀ failure memory' s', self.discipline.Leaves call op s' memory' →
      (Spare next payload → self.Works call op s' memory' t ∧ self.Leads call op t.id s s') →
      (t.Advances next payload → ¬Spare next payload → self.Misses call s failure s') →
      err failure memory' s') :
    (self.transition t next payload).Meets (self.discipline.contract call op) ok err memory s := by
  have calm := h.calm unfinished
  refine meets_transition_of (calm.asks rfl trivial) ?_ ?_ ?_
  · intro time failure memory' s' answers refused
    have regains := calm.regains answers rfl
    exact failed _ memory' s' regains.calm.toLeaves
      (fun _ => ⟨h.regains regains, regains.leads⟩) fun advances => absurd advances refused
  · intro time memory' s' answers _ repeats
    have regains := calm.regains answers rfl
    exact repeated memory' s' repeats (h.regains regains) regains.leads
  · intro time memory₁ s₁ e answers advances takes
    have regains := calm.regains answers rfl
    have works := h.regains regains
    have leads : self.Leads call op t.id s s₁ := regains.leads
    refine regains.calm.meets_append takes.actor (takes.transaction ▸ works.claimed) ?_ ?_ ?_
    · refine .advance works.logged takes.apply ?_ ?_
      · intro p v hp
        exact (vote p v (takes.carries ▸ hp)).mono leads.past
      · intro p hp
        exact (acknowledged p (takes.carries ▸ hp)).mono leads.past
    · intro memory₂ s₂ stores
      have replay : Transaction.replay (Log.history s₁.log self.id t.id ++ [e]) =
          .ok (t.record next payload) := Transaction.replay_append_of_apply works.logged takes.apply
      have works₂ := Works.of_stores (t := t.record next payload) stores regains.unfailed
        (by simp [takes.transaction]) (by simpa using works.claimed) (by simpa using works.drawn)
        (by simpa using replay)
      refine advanced _ _ advances ?_ (leads.trans (takes.transaction ▸ Stores.leads stores))
      simpa using works₂
    · intro failure memory₂ s₂ leaves misses regained
      refine failed _ _ _ leaves (fun spare => ?_) fun _ vital => ?_
      · have regains := regained (by simpa [spare] using takes.isVital_iff)
        exact ⟨works.regains regains, leads.trans regains.leads⟩
      · exact (misses (takes.isVital_iff.2 vital)).of_grows leads.toGrows

end AtomicCommit.Coordinator

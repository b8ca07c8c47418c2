import AtomicCommit.Proofs.Coordinator.Retention
import AtomicCommit.Proofs.Coordinator.Smooth
import Mathlib.Logic.Relation

/-!
# The memory of a coordinator mirrors its log

What a coordinator has in memory of a transaction is what its log replays to, at every moment of
every run. A transaction that is done is not in memory, and one that is not is, once it has been
begun or taken up since the last restart. So a query is answered the same before and after a
restart.

## Main definitions

* `Coordinator.Lives`: a run without a restart.
* `Coordinator.TakesUp`: a moment shows that a transaction is at work.

## Main results

* `Coordinator.memory_mirrors_log`: memory and log agree.
-/

namespace AtomicCommit.Coordinator

variable (self : Coordinator)

/-! ## What a step keeps -/

variable (tx : TransactionId)

/-- What an operation leaves behind: what was kept when it was last answered, or what it has
recovered. -/
def Keeps (op : Operation) (outcome : op.Result × Memory) (w : Watch) : Prop :=
  w.kept ∨ Recovers op outcome.1 → self.Retains tx w.log outcome.2

/-- A call that rests keeps a transaction if it was kept when the call last ran, however it is
answered. -/
def Minds (n : Node self.role) (t : Thread self.role) : Prop :=
  ∃ was : Prop, (was → self.Retains tx n.log n.memory) ∧
    ∀ log a w', (was → self.Retains tx log a.2) → Tidy a.2 →
      self.role.Answers log t.question a.1 w'.log → w'.kept = self.Retains tx log a.2 →
      (t.next a).Meets (self.retention tx) (self.Keeps tx t.operation) w'

/-- A moment shows that a transaction is at work: a question concerns it, or all have been
recovered. -/
def TakesUp (m : Moment self.role) : Prop :=
  match m.event with
  | .asked q => self.Concerns tx q
  | .returned op result => Recovers op result
  | _ => False

variable {self tx} {n n' : Node self.role}

/-- What others see of a step that keeps what is kept. -/
theorem Minds.of_keeps {t : Thread self.role} (h : self.Minds tx n t)
    (keeps : self.Retains tx n.log n.memory → self.Retains tx n'.log n'.memory) :
    self.Minds tx n' t := by
  obtain ⟨was, kept, goesOn⟩ := h
  exact ⟨was, fun h => keeps (kept h), goesOn⟩

/-- What a call that runs leaves behind when it rests or ends. -/
theorem settle_keeps {s : Scene self.role} {threads : ℕ → Option (Thread self.role)} {call : ℕ}
    {op : Operation} {p : self.role.Run op} {w : Watch} (log : w.log = s.log)
    (meets : p.Meets (self.retention tx) (self.Keeps tx op) w)
    (leaves : n = Node.settle s threads call op p) :
    (w.kept → self.Retains tx n.log n.memory) ∧
      (∃ event, n.past = s.past ++ [⟨call, event, s.log⟩] ∧
        (self.TakesUp tx ⟨call, event, s.log⟩ → self.Retains tx n.log n.memory)) ∧
      ∀ t, n.threads call = some t → self.Minds tx n t := by
  subst leaves
  cases p with
  | done outcome =>
    have keeps : w.kept ∨ Recovers op outcome.1 → self.Retains tx s.log outcome.2 := log ▸ meets
    refine ⟨fun kept => keeps (.inl kept), ⟨.returned op outcome.1, rfl, ?_⟩, ?_⟩
    · exact fun recovers => keeps (.inr recovers)
    · intro t rests
      simp [Node.settle] at rests
  | ask q next =>
    obtain ⟨asks, goesOn⟩ := meets
    have keeps : w.kept ∨ self.Concerns tx q.1 → self.Retains tx s.log q.2 := log ▸ asks
    refine ⟨fun kept => keeps (.inl kept), ⟨.asked q.1, rfl, ?_⟩, ?_⟩
    · exact fun concerns => keeps (.inr concerns)
    · intro t rests
      obtain ⟨ne, -⟩ | ⟨-, _, _, same, rfl⟩ := Node.cases_of_rests_settle rests
      · exact absurd rfl ne
      cases same
      refine ⟨self.Retains tx s.log q.2, fun kept => kept, ?_⟩
      intro log' a w' keeps tidy answers kept
      refine goesOn a w' ⟨log', ?_, tidy, answers, kept⟩
      rwa [log]

/-- What a step hands on: resting calls mind the transaction, it is kept unless there is a restart,
and it is kept once it has been taken up. -/
structure Passes (c : Coordinator) (tx : TransactionId) (n n' : Node c.role) : Prop where
  /-- Resting calls mind the transaction. -/
  minds : ∀ call t, n'.threads call = some t → c.Minds tx n' t
  /-- It is kept. -/
  kept : n' ≠ { log := n.log, past := n.past } → c.Retains tx n.log n.memory →
    c.Retains tx n'.log n'.memory
  /-- It is kept once taken up. -/
  taken : ∀ since, n'.past = n.past ++ since → ∀ m ∈ since, c.TakesUp tx m →
    c.Retains tx n'.log n'.memory

/-- A call runs in which all that is kept stays so. -/
theorem passes_settle {s : Scene self.role} {call : ℕ} {op : Operation} {p : self.role.Run op}
    {w : Watch} {event : Event self.role} {log : List Entry}
    (minds : ∀ call t, n.threads call = some t → self.Minds tx n t)
    (past : s.past = n.past ++ [⟨call, event, log⟩]) (silent : ¬self.TakesUp tx ⟨call, event, log⟩)
    (same : w.log = s.log) (kept : self.Retains tx n.log n.memory → w.kept)
    (meets : p.Meets (self.retention tx) (self.Keeps tx op) w) :
    self.Passes tx n (Node.settle s n.threads call op p) := by
  generalize leaves : Node.settle s n.threads call op p = n'
  obtain ⟨keeps, ⟨event', past', taken⟩, own⟩ := settle_keeps same meets leaves.symm
  constructor
  · intro other t rests
    by_cases ne : other = call
    · exact own t (ne ▸ rests)
    · refine (minds other t ?_).of_keeps fun h => keeps (kept h)
      rwa [← leaves, Node.threads_settle_of_ne ne] at rests
  · exact fun _ h => keeps (kept h)
  · intro since grown m hm takes
    rw [past', past, List.append_assoc, List.append_cancel_left_eq] at grown
    subst grown
    rcases List.mem_append.1 hm with hm | hm
    · rw [List.mem_singleton.1 hm] at takes
      exact absurd takes silent
    · rw [List.mem_singleton.1 hm] at takes
      exact taken takes

theorem passes_step {allows : Operation → Moment self.role → Prop} (tidy : Tidy n.memory)
    (minds : ∀ call t, n.threads call = some t → self.Minds tx n t) (step : n.Step allows n') :
    self.Passes tx n n' := by
  cases step with
  | @start call op new allowed =>
    refine passes_settle (w := ⟨n.log, self.Retains tx n.log n.memory⟩) minds rfl not_false rfl
      (fun kept => kept) ?_
    exact Keeping.meets_run ⟨tidy, fun kept => kept.resolve_right not_false⟩
  | @answer call t a log rests answers allowed =>
    obtain ⟨was, kept, goesOn⟩ := minds call t rests
    refine passes_settle (w := ⟨log, self.Retains tx n.log n.memory⟩) minds rfl not_false rfl
      (fun kept => kept) ?_
    exact goesOn n.log (a, n.memory) _ kept tidy answers rfl
  | restart =>
    refine ⟨fun _ _ rests => (nomatch rests), fun again => absurd rfl again, ?_⟩
    intro since grown m hm
    simp [List.self_eq_append_right.1 grown] at hm
  | @share e other =>
    have same : Log.history (n.log ++ [e]) self.id tx = Log.history n.log self.id tx :=
      Log.history_append_other n.log fun own => absurd own other
    have keeps : self.Retains tx n.log n.memory → self.Retains tx (n.log ++ [e]) n.memory := by
      intro h incomplete
      rw [Log.isIncomplete, Log.lastState?, same] at incomplete
      exact h incomplete
    refine ⟨fun call t rests => (minds call t rests).of_keeps keeps, fun _ => keeps, ?_⟩
    intro since grown m hm
    simp [List.self_eq_append_right.1 grown] at hm

/-! ## What a run keeps -/

/-- What is cached is what the log says, and is unfinished. -/
theorem cached_logged (holds : self.discipline.Holds n) {t : Transaction}
    (cached : n.memory.get? tx = some t) :
    t.id = tx ∧ self.Logged n.log t ∧ t.state ≠ .done := by
  have kept := holds.kept tx
  cases kept with
  | unknown _ none => simp [none] at cached
  | @known t' id replay _ copy =>
    obtain ⟨rfl, unfinished⟩ := copy t cached
    exact ⟨id, by rw [Logged, id]; exact replay, unfinished⟩

theorem tidy_of_holds (holds : self.discipline.Holds n) : Tidy n.memory := by
  intro tx t cached
  obtain ⟨id, -, unfinished⟩ := cached_logged holds cached
  exact ⟨id, unfinished⟩

theorem Reachable.minds (h : self.Reachable n) (tx : TransactionId) :
    ∀ call t, n.threads call = some t → self.Minds tx n t := by
  induction h with
  | initial => exact fun _ _ rests => nomatch rests
  | step before step ih => exact (passes_step (tidy_of_holds before.holds) ih step).minds

/-- Something happens, and it is not a restart. -/
def Continues (c : Coordinator) (n n' : Node c.role) : Prop :=
  n.Step (c.Allows n) n' ∧ n' ≠ { log := n.log, past := n.past }

/-- A run without a restart. -/
abbrev Lives (c : Coordinator) : Node c.role → Node c.role → Prop :=
  Relation.ReflTransGen c.Continues

theorem Reachable.lives (h : self.Reachable n) (lives : self.Lives n n') : self.Reachable n' := by
  induction lives with
  | refl => exact h
  | tail _ continues ih => exact ih.step continues.1

theorem Lives.grows (lives : self.Lives n n') : n.past <+: n'.past := by
  induction lives with
  | refl => exact List.prefix_rfl
  | tail _ continues ih => exact ih.trans continues.1.grows.past

/-- A transaction that is kept at first, or is taken up, is kept as long as there is no restart. -/
theorem Lives.retains (h : self.Reachable n) (lives : self.Lives n n')
    {since : List (Moment self.role)} (grown : n'.past = n.past ++ since)
    (known : self.Retains tx n.log n.memory ∨ ∃ m ∈ since, self.TakesUp tx m) :
    self.Retains tx n'.log n'.memory := by
  induction lives generalizing since with
  | refl =>
    rcases known with kept | ⟨m, hm, -⟩
    · exact kept
    · simp [List.self_eq_append_right.1 grown] at hm
  | @tail n₁ n' lives continues ih =>
    have reachable := h.lives lives
    have passes := passes_step (tidy_of_holds reachable.holds) (reachable.minds tx) continues.1
    obtain ⟨since₁, grown₁⟩ := Lives.grows lives
    obtain ⟨since₂, grown₂⟩ := continues.1.grows.past
    rw [← grown₂, ← grown₁, List.append_assoc, List.append_cancel_left_eq] at grown
    subst grown
    have earlier : (self.Retains tx n.log n.memory ∨ ∃ m ∈ since₁, self.TakesUp tx m) →
        self.Retains tx n'.log n'.memory := fun known =>
      passes.kept continues.2 (ih grown₁.symm known)
    rcases known with kept | ⟨m, hm, takes⟩
    · exact earlier (.inl kept)
    · rcases List.mem_append.1 hm with hm | hm
      · exact earlier (.inr ⟨m, hm, takes⟩)
      · exact passes.taken since₂ grown₂.symm m hm takes

/-! ## A single step -/

/-- What is cached is what the log says. -/
def Mirrors (c : Coordinator) (log : List Entry) (memory : Memory) : Prop :=
  ∀ tx t, memory.get? tx = some t → t.id = tx ∧ c.Logged log t

/-- Nobody else changes the memory while a program waits for its host. -/
def undisturbed (c : Coordinator) : Contract (interface.sharing Memory) (List Entry) where
  asks _ _ := True
  answers log q a log' := a.2 = q.2 ∧ c.role.Answers log q.1 a.1 log'

variable {log : List Entry} {memory : Memory}

theorem Mirrors.insert {t : Transaction} {e : Entry} (h : self.Mirrors log memory)
    (about : e.transaction = t.id)
    (replay : Transaction.replay (Log.history (log ++ [e]) self.id t.id) = .ok t) :
    self.Mirrors (log ++ [e]) (memory.insert t.id t) := by
  intro tx t' cached
  rw [SortedMap.get?_insert] at cached
  split at cached
  · rename_i same
    cases cached
    exact ⟨same.symm, replay⟩
  · rename_i different
    obtain ⟨rfl, logged⟩ := h tx t' cached
    refine ⟨rfl, ?_⟩
    rwa [Logged, Log.history_append_other log fun _ same => different (same.symm.trans about)]

/-- Whether its entry is stored or not, a step of a cached transaction leaves memory and log in
agreement. -/
theorem Mirrors.meets_transition {t : Transaction} {next : CoordinatorState} {payload : Payload}
    (h : self.Mirrors log memory) (cached : memory.get? t.id = some t) :
    (self.transition t next payload).Meets self.undisturbed
      (fun t' memory' log' => self.Mirrors log' memory' ∧ memory'.get? t.id = some t')
      (fun _ memory' log' => self.Mirrors log' memory' ∧ log' = log) memory log := by
  have logged := (h t.id t cached).2
  -- the clock changes nothing
  have reads : ∀ {time memory' log'},
      self.undisturbed.answers log (.inl .now, memory) (time, memory') log' →
        memory' = memory ∧ log' = log := fun answers => answers
  refine meets_transition_of trivial ?_ ?_ ?_
  · intro time failure memory' log' answers _
    obtain ⟨rfl, rfl⟩ := reads answers
    exact ⟨h, rfl⟩
  · intro time memory' log' answers _ _
    obtain ⟨rfl, rfl⟩ := reads answers
    exact ⟨h, cached⟩
  · intro time memory' log' e answers _ takes
    obtain ⟨rfl, rfl⟩ := reads answers
    rw [Host.meets_append]
    refine ⟨trivial, ?_⟩
    intro a memory' log₁ answers
    obtain ⟨same, answers⟩ : memory' = _ ∧ self.role.Answers log' (.inl (.append e)) a log₁ :=
      answers
    subst same
    constructor
    · rintro ⟨⟩ rfl
      obtain rfl : log₁ = _ := answers
      have replay := Transaction.replay_append_of_apply logged takes.apply
      rw [← Log.history_append_own _ takes.actor takes.transaction] at replay
      have id : (t.record next payload).id = t.id := by simp
      rw [← id] at replay ⊢
      exact ⟨h.insert (takes.transaction.trans id.symm) replay, by simp⟩
    · rintro failure rfl
      obtain rfl : log₁ = _ := answers
      exact ⟨h, rfl⟩

/-! ## Queries -/

/-- What a query reads. -/
def reading (log : List Entry) : (q : interface.Request) → Option (interface.Answer q)
  | .inl (.load tx) => some (.ok (Log.load log tx))
  | _ => none

/-- A query that is not interrupted says what the log says. -/
theorem interpret_queryState (h : self.Mirrors log memory)
    (replays : Log.history log self.id tx ≠ [] → ∃ t, t.id = tx ∧ self.Logged log t) :
    (Log.history log self.id tx = [] ∧
      (self.queryState tx).interpret (reading log) memory = some (.ok none, memory)) ∨
    ∃ t, t.id = tx ∧ self.Logged log t ∧
      (self.queryState tx).interpret (reading log) memory = some (.ok (some t), memory) := by
  cases cached : memory.get? tx with
  | some t =>
    obtain ⟨id, logged⟩ := h tx t cached
    refine .inr ⟨t, id, logged, ?_⟩
    simp [queryState, Action.interpret, Action.program_bind, cached, Program.interpret]
  | none =>
    by_cases known : Log.history log self.id tx = []
    · refine .inl ⟨known, ?_⟩
      simp [queryState, Action.interpret, Action.program_bind, Action.program_mapError, cached,
        Program.interpret, reading, Except.map, Except.mapError, Log.filter_load_eq_history, known]
    · obtain ⟨t, id, logged⟩ := replays known
      refine .inr ⟨t, id, logged, ?_⟩
      rw [Logged, id] at logged
      simp [queryState, Action.interpret, Action.program_bind, Action.program_mapError,
        Action.program_map, cached, Program.interpret, reading, Except.map, Except.mapError,
        Log.filter_load_eq_history, known, logged]

theorem interpret_queryDecision {answer : Option Transaction}
    (h : (self.queryState tx).interpret (reading log) memory = some (.ok answer, memory)) :
    (self.queryDecision tx).interpret (reading log) memory =
      some (.ok (answer.elim (some .abort) Transaction.decision), memory) := by
  unfold Action.interpret at h ⊢
  rw [queryDecision, Action.program_bind, Program.interpret_bind, h]
  cases answer <;> rfl

/-- Two memories that both mirror the log answer a query alike. -/
theorem Mirrors.queryState_eq {memory' : Memory} (h : self.Mirrors log memory)
    (h' : self.Mirrors log memory')
    (replays : Log.history log self.id tx ≠ [] → ∃ t, t.id = tx ∧ self.Logged log t) :
    ∃ answer, (self.queryState tx).interpret (reading log) memory = some (.ok answer, memory) ∧
      (self.queryState tx).interpret (reading log) memory' = some (.ok answer, memory') := by
  rcases interpret_queryState h replays with ⟨empty, answered⟩ | ⟨t, rfl, logged, answered⟩ <;>
    rcases interpret_queryState h' replays with ⟨empty', answered'⟩ | ⟨t', id, logged', answered'⟩
  · exact ⟨none, answered, answered'⟩
  · exact absurd (id ▸ empty) (Transaction.replay_ne_nil logged')
  · exact absurd empty' (Transaction.replay_ne_nil logged)
  · rw [Logged, id, logged] at logged'
    cases logged'
    exact ⟨some t, answered, answered'⟩

/-! ## Memory and log -/

/-- In every run, whatever fails to be stored, whatever is replied and whatever others write to the
log, the memory of a coordinator is what its log replays to, whenever all calls rest, and after
every single step of a transaction on its own. Every history that it wrote replays. No transaction
that is done is in memory; one that is not done is, if it was begun or taken up by a recovery since
the last restart. So queries are answered the same on the memory and after losing it. -/
theorem memory_mirrors_log {n : Node self.role} (h : self.Reachable n) :
    (∀ tx t, n.memory.get? tx = some t →
      t.id = tx ∧ Transaction.replay (Log.history n.log self.id tx) = .ok t ∧ t.state ≠ .done) ∧
    (∀ tx t next payload, n.memory.get? tx = some t →
      (self.transition t next payload).Meets self.undisturbed
        (fun t' memory log => self.Mirrors log memory ∧ memory.get? tx = some t')
        (fun _ memory log => self.Mirrors log memory ∧ log = n.log) n.memory n.log) ∧
    (∀ tx, Log.history n.log self.id tx ≠ [] →
      ∃ t, t.id = tx ∧ Transaction.replay (Log.history n.log self.id tx) = .ok t) ∧
    (∀ n' since, self.Lives n n' → n'.past = n.past ++ since → ∀ tx t,
      Transaction.replay (Log.history n'.log self.id tx) = .ok t → t.state ≠ .done →
      (Log.history n.log self.id tx = [] ∨ n.memory.contains tx = true ∨
        ∃ m ∈ since, self.TakesUp tx m) →
      n'.memory.get? tx = some t) ∧
    ∀ tx,
      (∃ answer,
        (self.queryState tx).interpret (reading n.log) n.memory = some (.ok answer, n.memory) ∧
        (self.queryState tx).interpret (reading n.log) ∅ = some (.ok answer, ∅)) ∧
      ∃ answer,
        (self.queryDecision tx).interpret (reading n.log) n.memory = some (.ok answer, n.memory) ∧
        (self.queryDecision tx).interpret (reading n.log) ∅ = some (.ok answer, ∅) := by
  have mirrors : self.Mirrors n.log n.memory := by
    intro tx t cached
    obtain ⟨id, logged, -⟩ := cached_logged h.holds cached
    exact ⟨id, logged⟩
  refine ⟨?_, ?_, ?_, ?_, ?_⟩
  · intro tx t cached
    obtain ⟨rfl, logged, unfinished⟩ := cached_logged h.holds cached
    exact ⟨rfl, logged, unfinished⟩
  · intro tx t next payload cached
    obtain ⟨rfl, -⟩ := mirrors tx t cached
    exact mirrors.meets_transition cached
  · intro tx known
    obtain ⟨t, rfl, logged⟩ := exists_logged h.holds.toSound known
    exact ⟨t, rfl, logged⟩
  · intro n' since lives grown tx t replay unfinished known
    have retains : self.Retains tx n'.log n'.memory := by
      refine Lives.retains h lives grown ?_
      rcases known with unknown | cached | taken
      · refine .inl fun incomplete => ?_
        simp [Log.isIncomplete, Log.lastState?, unknown] at incomplete
      · exact .inl fun _ => cached
      · exact .inr taken
    have incomplete := (Log.isIncomplete_iff_of_replay replay).2 unfinished
    obtain ⟨t', cached⟩ := SortedMap.contains_iff.1 (retains incomplete)
    obtain ⟨rfl, logged, -⟩ := cached_logged (h.lives lives).holds cached
    rw [Logged, replay] at logged
    cases logged
    exact cached
  · intro tx
    have lost : self.Mirrors n.log ∅ := fun tx t cached => by simp at cached
    obtain ⟨answer, answered, answered'⟩ :=
      mirrors.queryState_eq lost fun known => exists_logged h.holds.toSound known
    exact ⟨⟨answer, answered, answered'⟩,
      ⟨_, interpret_queryDecision answered, interpret_queryDecision answered'⟩⟩

/-- While the participant of a transaction is told its decision, the transaction is in memory as the
log has it, stays there until it is done, and its decision is the answer even if memory is lost. -/
theorem memory_mirrors_log_decidedRun :
    (default : Coordinator).Reachable decidedRun ∧
    (∃ t, decidedRun.memory.get? deal = some t ∧ t.decision = some .commit ∧
      (default : Coordinator).Logged decidedRun.log t) ∧
    (∀ n', (default : Coordinator).Lives decidedRun n' → ∀ t, t.id = deal →
      (default : Coordinator).Logged n'.log t → t.state ≠ .done →
      n'.memory.get? deal = some t) ∧
    ((default : Coordinator).queryDecision deal).interpret (reading decidedRun.log) ∅ =
      some (.ok (some .commit), ∅) := by
  obtain ⟨mirrors, -, -, keeps, queries⟩ := memory_mirrors_log reachable_decidedRun
  have cached : ∃ t, decidedRun.memory.get? deal = some t ∧ t.decision = some .commit := by
    decide +kernel
  refine ⟨reachable_decidedRun, ?_, ?_, ?_⟩
  · obtain ⟨t, cached, decided⟩ := cached
    obtain ⟨id, replay, -⟩ := mirrors deal t cached
    exact ⟨t, cached, decided, by rw [Logged, id]; exact replay⟩
  · intro n' lives t id logged unfinished
    obtain ⟨since, grown⟩ := Lives.grows lives
    refine keeps n' since lives grown.symm deal t ?_ unfinished (.inr (.inl ?_))
    · rw [← id]
      exact logged
    · decide +kernel
  · obtain ⟨-, answer, answered, answered'⟩ := queries deal
    have commit : ((default : Coordinator).queryDecision deal).interpret (reading decidedRun.log)
        decidedRun.memory = some (.ok (some .commit), decidedRun.memory) := by rfl
    rw [commit] at answered
    cases answered
    exact answered'

end AtomicCommit.Coordinator

import AtomicCommit.Proofs.Process.Discipline

/-!
# Calls that are attended to

A program is a tree, so a call that is answered whenever it rests comes to its end; to its result if
it asks nothing that ends it without one. Others may run meanwhile as often as they like.

## Main definitions

* `Node.Continues`: an endless run of a process, in which nothing may happen for a while.
* `Node.Attended`: a call is answered whenever it rests.

## Main results

* `Node.Continues.exists_start`: a call that has started did so in some step.
* `Node.Continues.exists_end`: a call that is attended to comes to its result in some step.
-/

namespace AtomicCommit

/-- Whether a call rests after an event. -/
def Event.isAsked {R : Role} : Event R → Bool
  | .asked _ => true
  | _ => false

namespace Node

variable {R : Role}

/-- A call has not started. -/
def Unstarted (n : Node R) (call : ℕ) : Prop :=
  ∀ m ∈ n.past, m.call ≠ call

instance (n : Node R) (call : ℕ) : Decidable (n.Unstarted call) :=
  inferInstanceAs (Decidable (∀ m ∈ n.past, m.call ≠ call))

/-- A run in which something or nothing happens at every point in time. -/
def Continues (allows : ℕ → R.Operation → Moment R → Prop) (run : ℕ → Node R) : Prop :=
  ∀ i, run (i + 1) = run i ∨ (run i).Step (allows i) (run (i + 1))

/-- Whenever a call rests more comes of it later. -/
def Attended (run : ℕ → Node R) (call : ℕ) : Prop :=
  ∀ i t, (run i).threads call = some t →
    ∃ j ≥ i, momentsOf (run j).past call ≠ momentsOf (run i).past call

/-- A call for an operation starts in a step. -/
def StartsAt (allows : ℕ → R.Operation → Moment R → Prop) (run : ℕ → Node R) (call : ℕ)
    (op : R.Operation) (k : ℕ) : Prop :=
  (run k).Unstarted call ∧ allows k op ⟨call, .started op, (run k).log⟩ ∧
    run (k + 1) = settle ((run k).note call (.started op)) (run k).threads call op
      (R.program op (run k).memory)

/-- A call for an operation ends in a step. -/
def EndsAt (allows : ℕ → R.Operation → Moment R → Prop) (run : ℕ → Node R) (call : ℕ)
    (op : R.Operation) (k : ℕ) : Prop :=
  ∃ s outcome m, m.call = call ∧ allows k op m ∧
    run (k + 1) = settle s (run k).threads call op (.done outcome)

variable {allows : ℕ → R.Operation → Moment R → Prop} {run : ℕ → Node R} {n n' : Node R}
  {call : ℕ} {op : R.Operation} {i : ℕ}

theorem Unstarted.of_prefix (h : n'.Unstarted call) (sub : n.past <+: n'.past) :
    n.Unstarted call :=
  fun m hm => h m (sub.subset hm)

theorem Continues.grows (h : Continues allows run) {j : ℕ} (le : i ≤ j) :
    (run i).toScene.Grows (run j).toScene := by
  induction j, le using Nat.le_induction with
  | base => exact .refl _
  | succ j _ ih =>
    rcases h j with same | step
    · exact same ▸ ih
    · exact ih.trans step.grows

/-- What a step does to a call that has started: nothing, but it may be lost, or it is answered. -/
theorem Step.cases_of_old {allows : R.Operation → Moment R → Prop} (step : n.Step allows n')
    (old : ¬n.Unstarted call) :
    ((n'.threads call = n.threads call ∨ n'.threads call = none) ∧
      momentsOf n'.past call = momentsOf n.past call) ∨
    ∃ t a log, n.threads call = some t ∧ R.Answers n.log t.question a log ∧
      allows t.operation ⟨call, .answered t.question a, log⟩ ∧
      n' = settle ({ n.toScene with log }.note call (.answered t.question a)) n.threads call
        t.operation (t.next (a, n.memory)) := by
  -- what another call goes through
  have others : ∀ (s : Scene R) (event : Event R) other (op : R.Operation) (p : R.Run op),
      other ≠ call → s.past = n.past ++ [⟨other, event, s.log⟩] →
      (settle s n.threads other op p).threads call = n.threads call ∧
        momentsOf (settle s n.threads other op p).past call = momentsOf n.past call := by
    intro s event other op p ne past
    refine ⟨threads_settle_of_ne ne.symm, ?_⟩
    rw [momentsOf_settle_of_ne ne.symm, past]
    simp [momentsOf_others, ne]
  cases step with
  | @start other op new allowed =>
    have ne : other ≠ call := by
      rintro rfl
      exact old new
    obtain ⟨threads, moments⟩ := others (n.note other (.started op)) _ other op
      (R.program op n.memory) ne rfl
    exact .inl ⟨.inl threads, moments⟩
  | @answer other t a log rests answers allowed =>
    by_cases ne : other = call
    · subst ne
      exact .inr ⟨t, a, log, rests, answers, allowed, rfl⟩
    · obtain ⟨threads, moments⟩ := others
        ({ n.toScene with log }.note other (.answered t.question a)) _ other t.operation
        (t.next (a, n.memory)) ne rfl
      exact .inl ⟨.inl threads, moments⟩
  | restart => exact .inl ⟨.inr rfl, rfl⟩
  | share _ => exact .inl ⟨.inl rfl, rfl⟩

/-- What a step does that starts a call. -/
theorem Step.cases_of_started {allows : R.Operation → Moment R → Prop} (step : n.Step allows n')
    {log : List Entry} (started : ⟨call, .started op, log⟩ ∈ n'.past) :
    ⟨call, .started op, log⟩ ∈ n.past ∨
      log = n.log ∧ n.Unstarted call ∧ allows op ⟨call, .started op, n.log⟩ ∧
        n' = settle (n.note call (.started op)) n.threads call op (R.program op n.memory) := by
  -- when a call settles, only what it has been through last is new
  have last : ∀ (s : Scene R) (event : Event R) other (op' : R.Operation) (p : R.Run op'),
      s.past = n.past ++ [⟨other, event, s.log⟩] →
      ⟨call, .started op, log⟩ ∈ (settle s n.threads other op' p).past →
      ⟨call, .started op, log⟩ ∈ n.past ∨ call = other ∧ .started op = event ∧ log = s.log := by
    intro s event other op' p past started
    obtain ⟨event', past', unstarted, -⟩ := settle_past s n.threads other op' p
    simp only [past', past, List.mem_append, List.mem_singleton, Moment.mk.injEq] at started
    rcases started with (old | new) | ⟨-, event, -⟩
    · exact .inl old
    · exact .inr new
    · exact absurd event.symm (unstarted op)
  cases step with
  | @start other op' new allowed =>
    rcases last (n.note other (.started op')) _ other op' _ rfl started with old | ⟨rfl, event, rfl⟩
    · exact .inl old
    · cases event
      exact .inr ⟨rfl, new, allowed, rfl⟩
  | @answer other t a log' rests answers allowed =>
    rcases last ({ n.toScene with log := log' }.note other (.answered t.question a)) _ other
      t.operation _ rfl started with old | ⟨-, event, -⟩
    · exact .inl old
    · cases event
  | restart => exact .inl started
  | share _ => exact .inl started

/-- A call that rests after a step has rested before, or has started. -/
theorem Step.cases_of_rests {allows : R.Operation → Moment R → Prop} (step : n.Step allows n')
    {t : Thread R} (rests : n'.threads call = some t) :
    (∃ t', n.threads call = some t' ∧ t'.operation = t.operation) ∨
      n.Unstarted call ∧ ∃ log, ⟨call, .started t.operation, log⟩ ∈ n'.past := by
  have settled : ∀ (s : Scene R) other (op : R.Operation) (p : R.Run op),
      (settle s n.threads other op p).threads call = some t →
      call = other ∧ t.operation = op ∨ n.threads call = some t := by
    intro s other op p rests
    rcases cases_of_rests_settle rests with ⟨-, rests⟩ | ⟨same, -, -, -, rfl⟩
    · exact .inr rests
    · exact .inl ⟨same, rfl⟩
  cases step.noted with
  | @start other op new allowed =>
    rcases settled _ _ _ _ rests with ⟨rfl, same⟩ | old
    · exact .inr ⟨new, n.log, same ▸ allowed.2⟩
    · exact .inl ⟨t, old, rfl⟩
  | @answer other t' a log rests' answers allowed =>
    rcases settled _ _ _ _ rests with ⟨rfl, same⟩ | old
    · exact .inl ⟨t', rests', same.symm⟩
    · exact .inl ⟨t, old, rfl⟩
  | restart => cases rests
  | share other => exact .inl ⟨t, rests, rfl⟩

/-- When a call has just ended, it has in this step, or nothing but a restart or an entry of another
process has come since. -/
theorem Step.cases_of_ended {allows : R.Operation → Moment R → Prop} (step : n.Step allows n')
    {result : R.Result op} {log : List Entry}
    (ended : n'.past.getLast? = some ⟨call, .returned op result, log⟩) :
    (n'.log = log ∧ (∃ m, m.call = call ∧ allows op m) ∧
      ∀ other t, n'.threads other = some t → other ≠ call ∧ n.threads other = some t) ∨
    n'.past = n.past ∧ (∀ other t, n'.threads other = some t → n.threads other = some t) ∧
      (n'.log = n.log ∨ ∃ e, e.actor ≠ R.name ∧ n'.log = n.log ++ [e]) := by
  have settled : ∀ (s : Scene R) call' (op' : R.Operation) (p : R.Run op'),
      (settle s n.threads call' op' p).past.getLast? = some ⟨call, .returned op result, log⟩ →
      s.log = log ∧ call' = call ∧ op' = op ∧ ∀ other t,
        (settle s n.threads call' op' p).threads other = some t →
        other ≠ call ∧ n.threads other = some t := by
    intro s call' op' p last
    cases p with
    | done outcome =>
      simp only [settle, Scene.note, List.getLast?_concat, Option.some.injEq] at last
      cases last
      refine ⟨rfl, rfl, rfl, fun other t rests => ?_⟩
      rcases cases_of_rests_settle rests with ⟨ne, rests⟩ | ⟨-, q, next, ends, -⟩
      · exact ⟨ne, rests⟩
      · cases ends
    | ask q next =>
      simp only [settle, Scene.note, List.getLast?_concat, Option.some.injEq] at last
      cases last
  cases step with
  | @start call' op' new allowed =>
    obtain ⟨rfl, rfl, rfl, others⟩ := settled _ _ _ _ ended
    exact .inl ⟨settle_log .., ⟨_, rfl, allowed⟩, others⟩
  | @answer call' t a log' rests answers allowed =>
    obtain ⟨rfl, rfl, rfl, others⟩ := settled _ _ _ _ ended
    exact .inl ⟨settle_log .., ⟨_, rfl, allowed⟩, others⟩
  | restart =>
    refine .inr ⟨rfl, fun _ _ rests => ?_, .inl rfl⟩
    cases rests
  | @share e other => exact .inr ⟨rfl, fun _ _ rests => rests, .inr ⟨e, other, rfl⟩⟩

/-- A call that has ended rests no more, and nothing more comes of it. -/
structure Closed (n : Node R) : Prop where
  /-- It rests no more. -/
  idle : ∀ call op result log, ⟨call, .returned op result, log⟩ ∈ n.past → n.threads call = none
  /-- Nothing more comes of it. -/
  silent : n.past.Pairwise fun m m' => ∀ op result, m.event = .returned op result →
    m'.call ≠ m.call

/-- So it is once a call settles that had not ended. -/
theorem closed_settle (closed : n.Closed) {s : Scene R} {event : Event R} {p : R.Run op}
    (past : s.past = n.past ++ [⟨call, event, s.log⟩])
    (unended : ∀ op result log, ⟨call, .returned op result, log⟩ ∉ n.past)
    (quiet : ∀ op result, event ≠ .returned op result) :
    (settle s n.threads call op p).Closed := by
  constructor
  · intro other op' result log returned
    rcases cases_of_returned_settle returned with earlier | ⟨outcome, rfl, last⟩
    · rw [past] at earlier
      rcases List.mem_append.1 earlier with old | last
      · have ne : other ≠ call := by
          rintro rfl
          exact unended _ _ _ old
        rw [threads_settle_of_ne ne]
        exact closed.idle _ _ _ _ old
      · cases List.mem_singleton.1 last
        exact absurd rfl (quiet op' result)
    · cases last
      exact Function.update_self ..
  · obtain ⟨event', past', -⟩ := settle_past s n.threads call op p
    rw [past', past, List.append_assoc, List.pairwise_append]
    refine ⟨closed.silent, by simpa using fun op result ended => absurd ended (quiet op result), ?_⟩
    rintro ⟨other, _, log⟩ hm m' hm' op result rfl same
    have own : m'.call = call := by
      simp only [List.singleton_append, List.mem_cons, List.not_mem_nil, or_false] at hm'
      rcases hm' with rfl | rfl <;> rfl
    obtain rfl : call = other := own.symm.trans same
    exact unended op result log hm

/-- So it stays. -/
theorem Closed.step {allows : R.Operation → Moment R → Prop} (closed : n.Closed)
    (step : n.Step allows n') : n'.Closed := by
  cases step with
  | start new allowed =>
    exact closed_settle closed rfl (fun _ _ _ ended => new _ ended rfl) fun _ _ => nofun
  | answer rests answers allowed =>
    refine closed_settle closed rfl (fun _ _ _ ended => ?_) fun _ _ => nofun
    rw [closed.idle _ _ _ _ ended] at rests
    cases rests
  | restart => exact ⟨fun _ _ _ _ _ => rfl, closed.silent⟩
  | share other => exact ⟨closed.idle, closed.silent⟩

/-- What a call has gone through that has ended: what had come before, and its end. -/
theorem Closed.momentsOf (closed : n.Closed) {before : List (Moment R)} {result : R.Result op}
    {log : List Entry} (sub : before ++ [⟨call, .returned op result, log⟩] <+: n.past) :
    momentsOf n.past call = momentsOf before call ++ [⟨call, .returned op result, log⟩] := by
  obtain ⟨later, past⟩ := sub
  have silent := closed.silent
  rw [← past, List.append_assoc, List.pairwise_append] at silent
  have others : ∀ m ∈ later, m.call ≠ call := fun m hm =>
    (List.pairwise_cons.1 silent.2.1).1 m hm op result rfl
  rw [← past, momentsOf_append, momentsOf_append, momentsOf_others others, momentsOf_own rfl,
    List.append_nil]

/-- What a call has been through stays so. -/
theorem old_of_mem {m : Moment R} (hm : m ∈ n.past) : ¬n.Unstarted m.call :=
  fun new => new m hm rfl

/-- A call that is attended to is answered some time later. -/
theorem Continues.exists_answer (h : Continues allows run) (attended : Attended run call)
    {t : Thread R} (rests : (run i).threads call = some t) (old : ¬(run i).Unstarted call) :
    ∃ j ≥ i, ∃ a log, allows j t.operation ⟨call, .answered t.question a, log⟩ ∧
      run (j + 1) = settle ({ (run j).toScene with log }.note call (.answered t.question a))
        (run j).threads call t.operation (t.next (a, (run j).memory)) := by
  by_contra! never
  -- as long as it is not answered nothing comes of it
  have still : ∀ j ≥ i, ((run j).threads call = some t ∨ (run j).threads call = none) ∧
      momentsOf (run j).past call = momentsOf (run i).past call := by
    intro j le
    induction j, le using Nat.le_induction with
    | base => exact ⟨.inl rests, rfl⟩
    | succ j le ih =>
      obtain ⟨threads, moments⟩ := ih
      rcases h j with same | step
      · rw [same]
        exact ⟨threads, moments⟩
      · have old : ¬(run j).Unstarted call := fun new => old (new.of_prefix (h.grows le).past)
        rcases step.cases_of_old old with
          ⟨threads', moments'⟩ | ⟨t', a, log, rests', -, allowed, eq⟩
        · refine ⟨?_, moments'.trans moments⟩
          rcases threads' with threads' | threads'
          · rwa [threads']
          · exact .inr threads'
        · rcases threads with threads | threads
          · rw [threads] at rests'
            cases rests'
            exact absurd eq (never j le a log allowed)
          · rw [threads] at rests'
            cases rests'
  obtain ⟨j, le, more⟩ := attended i t rests
  exact more (still j le).2

/-- A call that is attended to, and asks nothing that ends it without a result, comes to its result,
by induction on what is left of its program. -/
theorem Continues.exists_end_of_settle (h : Continues allows run) (attended : Attended run call)
    (lives : ∀ k q log, ⟨call, .asked q, log⟩ ∈ (run k).past → R.restsAt q = true)
    {p : R.Run op} {s : Scene R} {m : Moment R} (own : m.call = call) (allowed : allows i op m)
    (settled : run (i + 1) = settle s (run i).threads call op p) :
    ∃ k ≥ i, EndsAt allows run call op k := by
  induction p generalizing i s m with
  | done outcome => exact ⟨i, le_rfl, s, outcome, m, own, allowed, settled⟩
  | ask q next ih =>
    have asked : (⟨call, .asked q.1, s.log⟩ : Moment R) ∈ (run (i + 1)).past := by
      rw [settled]
      exact List.mem_append_right _ (.head _)
    have rests : (run (i + 1)).threads call = some { operation := op, question := q.1, next } := by
      simp only [settled, settle, Function.update_self, lives _ _ _ asked, if_true]
    obtain ⟨j, le, a, log, allowed, settled⟩ := h.exists_answer attended rests (old_of_mem asked)
    obtain ⟨k, le', ends⟩ := ih (a, (run j).memory) rfl allowed settled
    exact ⟨k, by omega, ends⟩

/-- A call that has started since a point in time did so in some step. -/
theorem Continues.exists_start (h : Continues allows run) {j : ℕ} (new : (run j).Unstarted call)
    {log : List Entry} (started : ⟨call, .started op, log⟩ ∈ (run i).past) :
    ∃ k, j ≤ k ∧ k < i ∧ log = (run k).log ∧ StartsAt allows run call op k := by
  have later (i : ℕ) (started : ⟨call, .started op, log⟩ ∈ (run i).past) : j < i := by
    by_contra! le
    exact absurd rfl (new _ ((h.grows le).past.subset started))
  induction i with
  | zero => exact absurd (later 0 started) (Nat.not_lt_zero j)
  | succ i ih =>
    have earlier (started : ⟨call, .started op, log⟩ ∈ (run i).past) :
        ∃ k, j ≤ k ∧ k < i + 1 ∧ log = (run k).log ∧ StartsAt allows run call op k := by
      obtain ⟨k, le, lt, rest⟩ := ih started
      exact ⟨k, le, Nat.lt_succ_of_lt lt, rest⟩
    have le := Nat.le_of_lt_succ (later (i + 1) started)
    rcases h i with same | step
    · exact earlier (same ▸ started)
    · rcases step.cases_of_started started with old | ⟨same, starts⟩
      · exact earlier old
      · exact ⟨i, le, Nat.lt_succ_self i, same, starts⟩

/-- A call that has started, is attended to, and asks nothing that ends it without a result, comes
to its result. -/
theorem Continues.exists_end (h : Continues allows run) (new : (run 0).Unstarted call)
    (attended : Attended run call)
    (lives : ∀ k q log, ⟨call, .asked q, log⟩ ∈ (run k).past → R.restsAt q = true)
    {log : List Entry} (started : ⟨call, .started op, log⟩ ∈ (run i).past) :
    ∃ k, EndsAt allows run call op k := by
  obtain ⟨j, -, -, -, -, allowed, settled⟩ := h.exists_start new started
  obtain ⟨k, -, ends⟩ := h.exists_end_of_settle attended lives rfl allowed settled
  exact ⟨k, ends⟩

/-- A call that has ended has been attended to. -/
theorem attended_of_ended {D : Discipline R} (holds : ∀ i, D.Holds (run i))
    (ended : ∀ j ≥ i, (run j).threads call = none)
    (last : ∀ q log, lastOf (run i).past call ≠ some ⟨call, .asked q, log⟩) :
    Attended run call := by
  intro j t rests
  have lt : j < i := by
    by_contra! le
    rw [ended j le] at rests
    cases rests
  refine ⟨i, lt.le, fun same => ?_⟩
  obtain ⟨log, asked⟩ := ((holds j).waits call t rests).asked
  refine last t.question log ?_
  rw [lastOf, same]
  exact asked

end Node

end AtomicCommit

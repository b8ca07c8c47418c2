import AtomicCommit.Proofs.Process.Cue

/-!
# Calls that leave no trace

A call that stores nothing, and that leaves the memory as it finds it whenever it rests or ends, can
be taken out of a run: what is left is a run, with the same log and memory, in which every other
call goes through the same. Some calls are so only when they fail. As long as such a call has stored
nothing it has not happened for the others, and once it has stored something it no longer fails.

## Main definitions

* `Cue.call?`, `Node.without`: a run and a process with a call taken out.
* `sparing`, `Role.Spares`: a call stores nothing and leaves memory alone if it fails in the end.
* `Node.Oblivious`: what may happen elsewhere does not depend on a call.

## Main results

* `Node.Plays.traceless`: the cues of a call that has failed can be taken out.
* `Node.Plays.restored`: they can be put back.
-/

namespace AtomicCommit

variable {R : Role}

/-- The call that a cue is for. -/
def Cue.call? : Cue R → Option ℕ
  | .started call _ | .answered call _ _ _ => some call
  | .restarted | .shared _ => none

/-- The scene without what has happened in a call. -/
def Scene.without (s : Scene R) (call : ℕ) : Scene R :=
  { s with past := s.past.filter fun m => m.call ≠ call }

/-- The process without a call. -/
def Node.without (n : Node R) (call : ℕ) : Node R where
  toScene := n.toScene.without call
  threads := Function.update n.threads call none

/-- What a call asks that has stored nothing: its memory is as it was found. Whoever answers hands
over any memory; once an entry is stored, nothing is asked of the memory any more. -/
def sparing (R : Role) : Contract (R.interface.sharing R.Memory) (Option R.Memory) where
  asks found q := ∀ memory, found = some memory → q.2 = memory
  answers found q a found' := ∃ log log', R.Answers log q.1 a.1 log' ∧
    (log' = log ∧ found' = found.map (fun _ => a.2) ∨ log' ≠ log ∧ found' = none)

/-- What is left of a call stores nothing and leaves memory alone if the call fails in the end. -/
def Role.Spares (R : Role) (fails : (op : R.Operation) → R.Result op → Prop) {op : R.Operation}
    (run : R.Run op) (found : Option R.Memory) : Prop :=
  run.Meets (sparing R) (fun outcome found => fails op outcome.1 → found = some outcome.2) found

/-- A call that rests, whatever it is answered, goes on so. -/
def Thread.Spares (fails : (op : R.Operation) → R.Result op → Prop) (t : Thread R)
    (found : Option R.Memory) : Prop :=
  ∀ a memory found', (sparing R).answers found (t.question, memory) a found' →
    R.Spares fails (t.next a) found'

/-- What may happen in other calls does not depend on whether a call is there; nor do others depend
on it once it rests no more. -/
structure Node.Oblivious (allows : Node R → R.Operation → Moment R → Prop) (call : ℕ) : Prop where
  /-- Without the call no less is allowed. -/
  without : ∀ n op m, m.call ≠ call → allows n op m → allows (n.without call) op m
  /-- With it no less is allowed once it has ended. -/
  ended : ∀ n op m, m.call ≠ call → n.threads call = none → allows (n.without call) op m →
    allows n op m

/-! ## Taking a call out -/

section Without

variable {s : Scene R} {n : Node R} {call other : ℕ} {event : Event R}
  {threads : ℕ → Option (Thread R)} {op : R.Operation} {run : R.Run op}

theorem Scene.note_without (ne : other ≠ call) :
    (s.note other event).without call = (s.without call).note other event := by
  simp [without, note, ne]

theorem Scene.without_note : (s.note call event).without call = s.without call := by
  simp [without, note]

/-- What other calls have been through is the same. -/
theorem momentsOf_without (ne : other ≠ call) :
    momentsOf (n.without call).past other = momentsOf n.past other := by
  have keeps : ∀ m : Moment R, m.call = other → m.call ≠ call := fun m own => own ▸ ne
  simp only [Node.without, Scene.without, momentsOf, List.filter_filter]
  refine List.filter_congr fun m _ => ?_
  by_cases own : m.call = other <;> simp [own, ne]

namespace Node

theorem threads_without (ne : other ≠ call) : (n.without call).threads other = n.threads other :=
  Function.update_of_ne ne ..

/-- Without the call, another settles all the same. -/
theorem settle_without (ne : other ≠ call) :
    (settle s threads other op run).without call =
      settle (s.without call) (Function.update threads call none) other op run := by
  cases run with
  | done outcome =>
    simp only [settle, without, Scene.note_without ne, Function.update_comm ne]
    rfl
  | ask q next =>
    simp only [settle, without, Scene.note_without ne, Function.update_comm ne]
    rfl

/-- Without the call nothing is seen of how it settles but the memory that it leaves. -/
theorem without_settle :
    (settle s threads call op run).without call =
      { toScene := { s.without call with memory := (settle s threads call op run).memory }
        threads := Function.update threads call none } := by
  cases run <;> simp [settle, without, Scene.without, Scene.note]

end Node

end Without

namespace Node

variable {allows : Node R → R.Operation → Moment R → Prop} {n n' k : Node R} {call : ℕ}
  {cue : Cue R}

/-- What comes to others comes to them without the call. -/
theorem Reacts.without (oblivious : Oblivious allows call) (h : n.Reacts (allows n) cue n')
    (other : cue.call? ≠ some call) :
    (n.without call).Reacts (allows (n.without call)) cue (n'.without call) := by
  cases h with
  | @start call' op new allowed =>
    have ne : call' ≠ call := fun same => other (congrArg some same)
    rw [settle_without ne, Scene.note_without ne]
    refine .start (n := n.without call) (fun m hm => ?_) (oblivious.without _ _ _ ne allowed)
    exact new m (List.mem_of_mem_filter hm)
  | @answer call' t a log rests answers allowed =>
    have ne : call' ≠ call := fun same => other (congrArg some same)
    rw [settle_without ne, Scene.note_without ne]
    exact .answer (n := n.without call) ((threads_without ne).trans rests) answers
      (oblivious.without _ _ _ ne allowed)
  | restart =>
    have lost : ({ log := n.log, past := n.past } : Node R).without call =
        { log := (n.without call).log, past := (n.without call).past } := by
      simp [Node.without, Scene.without]
    rw [lost]
    exact .restart
  | @share e foreign => exact .share (n := n.without call) foreign

/-- What comes to others without the call comes to them all the same once it has ended. -/
theorem Reacts.of_without (oblivious : Oblivious allows call)
    (h : (n.without call).Reacts (allows (n.without call)) cue k)
    (ended : n.threads call = none) (other : cue.call? ≠ some call) :
    ∃ n', n.Reacts (allows n) cue n' ∧ n'.without call = k ∧ n'.threads call = none := by
  cases h with
  | @start call' op new allowed =>
    have ne : call' ≠ call := fun same => other (congrArg some same)
    refine ⟨_, .start (fun m hm own => ?_) (oblivious.ended _ _ _ ne ended allowed), ?_, ?_⟩
    · exact new m (List.mem_filter.2 ⟨hm, by simpa [own] using ne⟩) own
    · rw [settle_without ne, Scene.note_without ne]
      rfl
    · rw [threads_settle_of_ne ne.symm]
      exact ended
  | @answer call' t a log rests answers allowed =>
    have ne : call' ≠ call := fun same => other (congrArg some same)
    rw [threads_without ne] at rests
    refine ⟨_, .answer rests answers (oblivious.ended _ _ _ ne ended allowed), ?_, ?_⟩
    · rw [settle_without ne, Scene.note_without ne]
      rfl
    · rw [threads_settle_of_ne ne.symm]
      exact ended
  | restart =>
    refine ⟨_, .restart, ?_, rfl⟩
    simp [Node.without, Scene.without]
  | @share e foreign => exact ⟨_, .share foreign, rfl, ended⟩

/-! ## A call that has failed -/

variable {fails : (op : R.Operation) → R.Result op → Prop} {cues : List (Cue R)} {s : Scene R}
  {threads : ℕ → Option (Thread R)} {op : R.Operation} {run : R.Run op}

/-- What comes to others adds nothing to a call, and leaves it resting or ends it. -/
theorem Reacts.other (h : n.Reacts (allows n) cue n') (other : cue.call? ≠ some call) :
    momentsOf n'.past call = momentsOf n.past call ∧
      ∀ t, n'.threads call = some t → n.threads call = some t := by
  cases h with
  | @start call' op new allowed =>
    have ne : call ≠ call' := fun same => other (congrArg some same.symm)
    rw [momentsOf_settle_of_ne ne, momentsOf_note_of_ne ne, threads_settle_of_ne ne]
    exact ⟨rfl, fun t rests => rests⟩
  | @answer call' t a log rests answers allowed =>
    have ne : call ≠ call' := fun same => other (congrArg some same.symm)
    rw [momentsOf_settle_of_ne ne, momentsOf_note_of_ne ne, threads_settle_of_ne ne]
    exact ⟨rfl, fun t rests => rests⟩
  | restart => exact ⟨rfl, fun t rests => nomatch rests⟩
  | share _ => exact ⟨rfl, fun t rests => rests⟩

/-- Whenever something comes to the call, log and memory stay as they are. -/
def Untouched (allows : Node R → R.Operation → Moment R → Prop) (call : ℕ) (cues : List (Cue R)) :
    Prop :=
  ∀ before cue n₁ n₂, before ++ [cue] <+: cues → cue.call? = some call →
    Plays allows before n₁ → n₁.Reacts (allows n₁) cue n₂ →
    n₂.log = n₁.log ∧ n₂.memory = n₁.memory

/-- No end of the call is noted. -/
def Unended (s : Scene R) (call : ℕ) : Prop :=
  ∀ op result log, ⟨call, .returned op result, log⟩ ∉ s.past

theorem Unended.congr {s' : Scene R} (h : Unended s call)
    (same : momentsOf s'.past call = momentsOf s.past call) : Unended s' call := by
  intro op result log returned
  have mem := mem_momentsOf returned rfl
  rw [same] at mem
  exact h _ _ _ (mem_of_mem_momentsOf mem)

theorem Unended.answered (h : Unended s call) {q : R.Request} (a : R.Answer q)
    (log : List Entry) : Unended (({ s with log } : Scene R).note call (.answered q a)) call := by
  intro op' result log' returned
  rcases List.mem_append.1 returned with old | last
  · exact h _ _ _ old
  · cases List.mem_singleton.1 last

/-- A call that rests goes on sparing log and memory. -/
structure Goes (fails : (op : R.Operation) → R.Result op → Prop) (call : ℕ) (n : Node R)
    (found : Option R.Memory) (t : Thread R) : Prop where
  /-- It does whatever it is answered. -/
  spares : t.Spares fails found
  /-- It has not ended. -/
  unended : Unended n.toScene call

/-- Until now the call has stored nothing, and all is as if it were not there. -/
structure Spared (fails : (op : R.Operation) → R.Result op → Prop)
    (allows : Node R → R.Operation → Moment R → Prop) (call : ℕ) (cues : List (Cue R))
    (n : Node R) : Prop where
  /-- The others go on without it. -/
  plays : Plays allows (cues.filter fun cue => cue.call? ≠ some call) (n.without call)
  /-- It has left log and memory alone. -/
  untouched : Untouched allows call cues
  /-- It goes on so. -/
  rests : ∀ t, n.threads call = some t → ∃ memory, Goes fails call n (some memory) t

/-- The call has stored something, or has ended well. -/
structure Spent (fails : (op : R.Operation) → R.Result op → Prop) (call : ℕ) (n : Node R) : Prop
    where
  /-- It has started. -/
  started : ∃ m ∈ n.past, m.call = call
  /-- It will not fail. -/
  rests : ∀ t, n.threads call = some t → Goes fails call n none t
  /-- It has not failed. -/
  succeeds : ∀ op result log, ⟨call, .returned op result, log⟩ ∈ n.past → ¬fails op result

theorem Goes.congr {found : Option R.Memory} {t : Thread R} (h : Goes fails call n found t)
    (same : momentsOf n'.past call = momentsOf n.past call) : Goes fails call n' found t where
  spares := h.spares
  unended := h.unended.congr same

theorem Untouched.snoc (h : Untouched allows call cues) (plays : Plays allows cues n)
    (reacts : n.Reacts (allows n) cue n')
    (same : cue.call? = some call → n'.log = n.log ∧ n'.memory = n.memory) :
    Untouched allows call (cues ++ [cue]) := by
  intro before cue' n₁ n₂ sub own plays₁ reacts₁
  rcases List.prefix_concat_iff.1 sub with whole | sub
  · obtain ⟨rfl, last⟩ := List.append_inj' whole rfl
    obtain rfl := List.singleton_inj.1 last
    obtain rfl := plays.unique plays₁
    obtain rfl := reacts.unique reacts₁
    exact same own
  · exact h before cue' n₁ n₂ sub own plays₁ reacts₁

theorem started_settle : ∃ m ∈ (settle s threads call op run).past, m.call = call := by
  obtain ⟨event, past, -⟩ := settle_past s threads call op run
  rw [past]
  exact ⟨_, List.mem_append_right _ (.head _), rfl⟩

/-- A call that comes to rest goes on as its program does. -/
theorem goes_settle {found : Option R.Memory} (unended : Unended s call)
    (spares : R.Spares fails run found) (t : Thread R)
    (rests : (settle s threads call op run).threads call = some t) :
    Goes fails call (settle s threads call op run) found t := by
  rcases cases_of_rests_settle rests with ⟨ne, -⟩ | ⟨-, q, next, rfl, rfl⟩
  · exact absurd rfl ne
  refine ⟨fun a memory found answers => spares.2 a found answers, ?_⟩
  intro op' result log returned
  rcases cases_of_returned_settle returned with old | ⟨outcome, same, -⟩
  · exact unended _ _ _ old
  · cases same

/-- A call that fails no more is spent when it rests or ends. -/
theorem spent_settle (unended : Unended s call) (spares : R.Spares fails run none) :
    Spent fails call (settle s threads call op run) where
  started := started_settle
  rests := goes_settle unended spares
  succeeds op' result log returned := by
    rcases cases_of_returned_settle returned with old | ⟨outcome, rfl, same⟩
    · exact absurd old (unended _ _ _)
    · cases same
      intro failed
      cases spares failed

/-- A call that has stored nothing leaves the memory as it is, or ends well. -/
theorem kept_or_spent_settle (unended : Unended s call)
    (spares : R.Spares fails run (some s.memory)) :
    (settle s threads call op run).memory = s.memory ∨
      Spent fails call (settle s threads call op run) := by
  cases run with
  | ask q next => exact .inl (spares.1 _ rfl)
  | done outcome =>
    by_cases failed : fails op outcome.1
    · exact .inl (Option.some.inj (spares failed)).symm
    refine .inr ⟨started_settle, fun t rests => ?_, fun op' result log returned => ?_⟩
    · simp [settle] at rests
    · rcases cases_of_returned_settle returned with old | ⟨outcome', same, noted⟩
      · exact absurd old (unended _ _ _)
      · cases same
        cases noted
        exact failed

/-- What has been noted of the call alone is not seen without it. -/
theorem without_settle_of_same (past : s.without call = n.toScene.without call)
    (memory : (settle s n.threads call op run).memory = n.memory) :
    (settle s n.threads call op run).without call = n.without call := by
  rw [without_settle, past, memory]
  rfl

/-- A call goes on that has stored nothing until now. -/
theorem Spared.settle (h : Spared fails allows call cues n) (plays : Plays allows cues n)
    (own : cue.call? = some call) (scene : s.without call = n.toScene.without call)
    (reacts : n.Reacts (allows n) cue (settle s n.threads call op run))
    (unended : Unended s call) (spares : R.Spares fails run (some n.memory)) :
    Spared fails allows call (cues ++ [cue]) (Node.settle s n.threads call op run) ∨
      Spent fails call (Node.settle s n.threads call op run) := by
  have log : (s.without call).log = (n.toScene.without call).log := by rw [scene]
  have memory : (s.without call).memory = (n.toScene.without call).memory := by rw [scene]
  replace log : s.log = n.log := log
  replace memory : s.memory = n.memory := memory
  rw [← memory] at spares
  refine (kept_or_spent_settle unended spares).imp_left fun kept => ⟨?_, ?_, ?_⟩
  · have skipped : [cue].filter (fun cue => cue.call? ≠ some call) = [] := by simp [own]
    rw [List.filter_append, skipped, List.append_nil,
      without_settle_of_same scene (kept.trans memory)]
    exact h.plays
  · refine h.untouched.snoc plays reacts fun _ => ?_
    exact ⟨(settle_log ..).trans log, kept.trans memory⟩
  · exact fun t rests => ⟨_, goes_settle unended spares t rests⟩

/-- Something comes to the process while the call has stored nothing. -/
theorem Spared.step (oblivious : Oblivious allows call) (h : Spared fails allows call cues n)
    (plays : Plays allows cues n) (reacts : n.Reacts (allows n) cue n')
    (spares : ∀ op, cue = .started call op → ∀ memory,
      R.Spares fails (R.program op memory) (some memory)) :
    Spared fails allows call (cues ++ [cue]) n' ∨ Spent fails call n' := by
  by_cases own : cue.call? = some call
  · have kept := reacts
    cases reacts with
    | @start call' op new allowed =>
      obtain rfl : call' = call := Option.some.inj own
      refine h.settle plays own Scene.without_note kept (fun op' result log returned => ?_)
        (spares op rfl n.memory)
      rcases List.mem_append.1 returned with old | last
      · exact new _ old rfl
      · cases List.mem_singleton.1 last
    | @answer call' t a log rests answers allowed =>
      obtain rfl : call' = call := Option.some.inj own
      obtain ⟨found, goes⟩ := h.rests t rests
      have unended := goes.unended.answered (q := t.question) a log
      by_cases same : log = n.log
      · subst same
        exact h.settle plays own Scene.without_note kept unended
          (goes.spares (a, n.memory) found _ ⟨_, _, answers, .inl ⟨rfl, rfl⟩⟩)
      · exact .inr (spent_settle unended
          (goes.spares (a, n.memory) found _ ⟨_, _, answers, .inr ⟨same, rfl⟩⟩))
    | restart => cases own
    | share _ => cases own
  · have others : [cue].filter (fun cue => cue.call? ≠ some call) = [cue] := by simp [own]
    obtain ⟨moments, resting⟩ := reacts.other own
    refine .inl ⟨?_, h.untouched.snoc plays reacts (absurd · own), fun t rests => ?_⟩
    · rw [List.filter_append, others]
      exact h.plays.snoc (reacts.without oblivious own)
    · exact (h.rests t (resting t rests)).imp fun _ goes => goes.congr moments

/-- Something comes to the process once the call no longer fails. -/
theorem Spent.step (h : Spent fails call n) (reacts : n.Reacts (allows n) cue n') :
    Spent fails call n' := by
  by_cases own : cue.call? = some call
  · cases reacts with
    | @start call' op new allowed =>
      obtain rfl : call' = call := Option.some.inj own
      obtain ⟨m, hm, same⟩ := h.started
      exact absurd same (new m hm)
    | @answer call' t a log rests answers allowed =>
      obtain rfl : call' = call := Option.some.inj own
      have goes := h.rests t rests
      refine spent_settle (goes.unended.answered a log) (goes.spares (a, n.memory) n.memory none ?_)
      by_cases same : log = n.log
      · exact ⟨_, _, answers, .inl ⟨same, rfl⟩⟩
      · exact ⟨_, _, answers, .inr ⟨same, rfl⟩⟩
    | restart => cases own
    | share _ => cases own
  · obtain ⟨moments, resting⟩ := reacts.other own
    obtain ⟨m, hm, same⟩ := h.started
    refine ⟨⟨m, reacts.step.grows.past.subset hm, same⟩, fun t rests => ?_, ?_⟩
    · exact (h.rests t (resting t rests)).congr moments
    · intro op result log returned
      have mem := mem_momentsOf returned rfl
      rw [moments] at mem
      exact h.succeeds op result log (mem_of_mem_momentsOf mem)

/-- In a run a call has stored nothing, or does not fail. -/
theorem Plays.spared_or_spent (oblivious : Oblivious allows call) (h : Plays allows cues n)
    (spares : ∀ op, .started call op ∈ cues → ∀ memory,
      R.Spares fails (R.program op memory) (some memory)) :
    Spared fails allows call cues n ∨ Spent fails call n := by
  induction h with
  | nil =>
    refine .inl ⟨?_, fun before cue n₁ n₂ sub => ?_, fun t rests => nomatch rests⟩
    · have nothing : ({} : Node R).without call = {} := by
        simp [Node.without, Scene.without]
      rw [nothing]
      exact .nil
    · simp at sub
  | @snoc cues n n' cue before reacts ih =>
    rcases ih fun op mem => spares op (List.mem_append_left _ mem) with spared | spent
    · refine spared.step oblivious before reacts fun op same => spares op ?_
      exact List.mem_append_right _ (List.mem_singleton.2 same.symm)
    · exact .inr (spent.step reacts)

/-- What a call was started for is noted. -/
theorem Plays.started (h : Plays allows cues n) (mem : .started call op ∈ cues) :
    ∃ log, ⟨call, .started op, log⟩ ∈ n.past := by
  induction h with
  | nil => cases mem
  | @snoc cues n n' cue before reacts ih =>
    rcases List.mem_append.1 mem with old | last
    · obtain ⟨log, started⟩ := ih old
      exact ⟨log, reacts.step.grows.past.subset started⟩
    · cases List.mem_singleton.1 last
      cases reacts with
      | start new allowed =>
        obtain ⟨event, past, -⟩ := settle_past (n.note call (.started op)) n.threads call op
          (R.program op n.memory)
        exact ⟨n.log, past ▸ List.mem_append_left _ (List.mem_append_right _ (.head _))⟩

/-- A run ends with its last cue. -/
theorem Plays.of_concat {all : List (Cue R)} (h : Plays allows all n')
    (whole : all = cues ++ [cue]) : ∃ n, Plays allows cues n ∧ n.Reacts (allows n) cue n' := by
  cases h with
  | nil => simp at whole
  | @snoc cues' n _ cue' before reacts =>
    obtain ⟨rfl, last⟩ := List.append_inj' whole rfl
    obtain rfl := List.singleton_inj.1 last
    exact ⟨n, before, reacts⟩

/-- What a longer run has come to before. -/
theorem Plays.of_append {later : List (Cue R)} (h : Plays allows (cues ++ later) n') :
    ∃ n, Plays allows cues n ∧ n.toScene.Grows n'.toScene := by
  induction later using List.reverseRecOn generalizing n' with
  | nil => exact ⟨n', by simpa using h, .refl _⟩
  | append_singleton later cue ih =>
    obtain ⟨n₁, before, reacts⟩ := h.of_concat (List.append_assoc cues later [cue]).symm
    obtain ⟨n, plays, grows⟩ := ih before
    exact ⟨n, plays, grows.trans reacts.step.grows⟩

/-- What comes to others without the call may come to them when it has ended. -/
theorem Plays.restored (oblivious : Oblivious allows call) (h : Plays allows cues n)
    (ended : n.threads call = none) {later : List (Cue R)}
    (others : ∀ cue ∈ later, cue.call? ≠ some call)
    (plays : Plays allows (cues.filter fun cue => cue.call? ≠ some call) (n.without call))
    (goesOn : Plays allows ((cues.filter fun cue => cue.call? ≠ some call) ++ later) k) :
    ∃ n', Plays allows (cues ++ later) n' ∧ n'.without call = k ∧ n'.threads call = none := by
  induction later using List.reverseRecOn generalizing k with
  | nil =>
    rw [List.append_nil] at goesOn ⊢
    exact ⟨n, h, goesOn.unique plays, ended⟩
  | append_singleton later cue ih =>
    obtain ⟨k₁, before, reacts⟩ := goesOn.of_concat
      (List.append_assoc _ later [cue]).symm
    obtain ⟨n₁, plays₁, rfl, ended₁⟩ := ih (fun c mem => others c (List.mem_append_left _ mem))
      before
    obtain ⟨n', reacts', same, ended'⟩ := reacts.of_without oblivious ended₁
      (others cue (List.mem_append_right _ (.head _)))
    rw [← List.append_assoc]
    exact ⟨n', plays₁.snoc reacts', same, ended'⟩

/-- A call that fails in the end has left log and memory alone. Whatever else comes later comes to
the same with the call taken out of the run. -/
theorem Plays.traceless (oblivious : Oblivious allows call) (h : Plays allows cues n)
    (spares : ∀ op, .started call op ∈ cues → ∀ memory,
      R.Spares fails (R.program op memory) (some memory))
    {result : R.Result op} {log : List Entry} (ended : ⟨call, .returned op result, log⟩ ∈ n.past)
    (failed : fails op result) :
    Untouched allows call cues ∧
    ∀ later, (∀ cue ∈ later, cue.call? ≠ some call) → ∀ k,
      Plays allows ((cues.filter fun cue => cue.call? ≠ some call) ++ later) k ↔
        ∃ n', Plays allows (cues ++ later) n' ∧ n'.without call = k := by
  -- as long as only others go on, the call remains one that has stored nothing
  have spared : ∀ later n', (∀ cue ∈ later, cue.call? ≠ some call) →
      Plays allows (cues ++ later) n' → Spared fails allows call (cues ++ later) n' := by
    intro later n' others plays
    obtain ⟨n₁, before, grows⟩ := plays.of_append
    obtain rfl := h.unique before
    have spares : ∀ op, .started call op ∈ cues ++ later → ∀ memory,
        R.Spares fails (R.program op memory) (some memory) := by
      intro op mem
      rcases List.mem_append.1 mem with old | new
      · exact spares op old
      · exact absurd rfl (others _ new)
    refine (plays.spared_or_spent oblivious spares).resolve_right fun spent => ?_
    exact spent.succeeds _ _ _ (grows.past.subset ended) failed
  have now := spared [] n (by simp) (by simpa using h)
  rw [List.append_nil] at now
  refine ⟨now.untouched, fun later others k => ⟨fun plays => ?_, ?_⟩⟩
  · have idle : n.threads call = none := by
      refine Option.eq_none_iff_forall_ne_some.2 fun t rests => ?_
      obtain ⟨_, goes⟩ := now.rests t rests
      exact goes.unended _ _ _ ended
    obtain ⟨n', plays', same, -⟩ := h.restored oblivious idle others now.plays plays
    exact ⟨n', plays', same⟩
  · rintro ⟨n', plays, rfl⟩
    have kept : later.filter (fun cue => cue.call? ≠ some call) = later :=
      List.filter_eq_self.2 fun cue mem => by simpa using others cue mem
    have played := (spared later n' others plays).plays
    rwa [List.filter_append, kept] at played

end Node

end AtomicCommit

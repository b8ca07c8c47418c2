import AtomicCommit.Proofs.Coordinator.Recovering

/-!
# A coordinator keeps to its discipline

Every operation of a coordinator keeps to the discipline, whatever it is answered: a begin draws an
identifier and drives the transaction it begins, a recovery drives one unfinished transaction after
another, and queries and forgetting change nothing.

## Main results

* `Coordinator.obeyed`: every operation keeps to the discipline.
-/

namespace AtomicCommit.Coordinator

variable {self : Coordinator} {call : ℕ} {op : Operation} {s : Scene self.role} {memory : Memory}
  {t : Transaction} {tx : TransactionId}

/-- A call starts with all transactions in order. -/
theorem calm_start (sound : self.discipline.Sound s) (new : ∀ m ∈ s.past, m.call ≠ call) :
    self.Calm call op (s.note call (.started op)) s.memory where
  toCalm := Discipline.calm_start discipline_lawful sound
  unfailed := by
    rintro ⟨e, failure, log, -, h⟩
    rcases List.mem_append.1 h with h | h
    · exact new _ h rfl
    · cases List.mem_singleton.1 h

/-! ## Queries -/

theorem meets_queryState {ok : Option Transaction → Memory → Scene self.role → Prop}
    {err : CommitError → Memory → Scene self.role → Prop} (h : self.Calm call op s memory)
    (unknown : ∀ memory' s', self.Calm call op s' memory' → Log.history s'.log self.id tx = [] →
      ok none memory' s')
    (known : ∀ t memory' s', self.Calm call op s' memory' → t.id = tx → self.Logged s'.log t →
      ok (some t) memory' s')
    (failed : ∀ failure memory' s', self.discipline.Leaves call op s' memory' →
      err failure memory' s') :
    (self.queryState tx).Meets (self.discipline.contract call op) ok err memory s := by
  rw [queryState, Action.meets_bind, Action.meets_get]
  cases cached : memory.get? tx with
  | some t =>
    obtain ⟨id, logged, -, -⟩ := h.of_cached cached
    exact known t memory s h id logged
  | none =>
    simp only [Action.meets_bind, Action.meets_mapError, Host.history, Host.meets_load]
    refine ⟨h.asks rfl trivial, ?_⟩
    intro found memory' s' answers
    have regains := h.regains answers rfl
    refine ⟨?_, fun failure _ => failed _ _ _ regains.calm.toLeaves⟩
    rintro entries rfl
    obtain rfl : entries = Log.load s'.log tx := regains.host.2 entries rfl
    rw [Action.meets_pure, Log.filter_load_eq_history]
    split
    · rename_i empty
      exact unknown memory' s' regains.calm (List.isEmpty_iff.1 empty)
    · rw [Action.meets_map, Action.meets_ofExcept]
      refine ⟨fun t replay => ?_, fun failure _ => failed _ _ _ regains.calm.toLeaves⟩
      have id := id_of_replay_history replay
      exact known t memory' s' regains.calm id (by rw [Logged, id]; exact replay)

theorem meets_queryDecision {ok : Option Decision → Memory → Scene self.role → Prop}
    {err : CommitError → Memory → Scene self.role → Prop} (h : self.Calm call op s memory)
    (answered : ∀ answer memory' s', self.Calm call op s' memory' →
      (Log.history s'.log self.id tx = [] ∧ answer = some .abort ∨
        ∃ t, t.id = tx ∧ self.Logged s'.log t ∧ answer = t.decision) → ok answer memory' s')
    (failed : ∀ failure memory' s', self.discipline.Leaves call op s' memory' →
      err failure memory' s') :
    (self.queryDecision tx).Meets (self.discipline.contract call op) ok err memory s := by
  rw [queryDecision, Action.meets_bind]
  refine meets_queryState h ?_ ?_ failed
  · intro memory' s' calm empty
    exact answered _ memory' s' calm (.inl ⟨empty, rfl⟩)
  · intro t memory' s' calm id logged
    exact answered _ memory' s' calm (.inr ⟨t, id, logged, rfl⟩)

theorem meets_forget {ok : Bool → Memory → Scene self.role → Prop}
    {err : CommitError → Memory → Scene self.role → Prop} (h : self.Calm call op s memory)
    (forgotten : ok false memory s)
    (failed : ∀ failure, err failure memory s) :
    (forget tx : Step Bool).Meets (self.discipline.contract call op) ok err memory s := by
  rw [forget, Action.meets_bind, Action.meets_get]
  cases cached : memory.get? tx with
  | none => exact forgotten
  | some t =>
    dsimp only
    rw [if_neg (h.of_cached cached).2.2.1]
    exact failed _

/-! ## Beginning -/

/-- An identifier never drawn before is unknown. -/
theorem Calm.meets_freshId {ε : Type} {ok : TransactionId → Memory → Scene self.role → Prop}
    {err : ε → Memory → Scene self.role → Prop} (h : self.Calm call op s memory)
    (undrawn : ∀ tx, ¬self.Drawn s.past call tx)
    (next : ∀ tx memory' s', self.Calm call op s' memory' → self.Drawn s'.past call tx →
      Log.history s'.log self.id tx = [] → memory'.get? tx = none → s.Grows s' →
      ok tx memory' s') :
    (freshId : Action interface Memory ε _).Meets (self.discipline.contract call op) ok err
      memory s := by
  rw [freshId, Action.meets_ask]
  refine ⟨h.asks rfl undrawn, ?_⟩
  intro tx memory' s' answers
  have regains := h.regains answers rfl
  obtain ⟨s₁, log, finds, hm, host, fresh, rfl⟩ := Discipline.Resumes.finds answers
  obtain rfl : log = s₁.log := host
  refine next tx memory' _ regains.calm ⟨_, regains.noted⟩ ?_ ?_ regains.toGrows
  · cases finds.kept tx with
    | unknown history _ => exact history
    | known _ _ drawn _ => exact absurd drawn.choose_spec (fresh _)
  · dsimp only at hm
    rw [hm]
    cases finds.kept tx with
    | unknown _ copy => exact copy
    | known _ _ drawn _ => exact absurd drawn.choose_spec (fresh _)

/-- The time that is told at a moment. -/
def clock? (m : Moment self.role) : Option Timestamp :=
  match m.event with
  | .answered (.inl .now) time => some time
  | _ => none

/-- The first time that a call has been told. -/
def firstClock? (past : List (Moment self.role)) (call : ℕ) : Option Timestamp :=
  (momentsOf past call).findSome? clock?

/-- What a call has been told first stays so. -/
theorem firstClock?_of_prefix {past later : List (Moment self.role)} {now : Timestamp}
    (h : firstClock? past call = some now) (sub : past <+: later) :
    firstClock? later call = some now := by
  obtain ⟨more, rfl⟩ := sub
  have h : (momentsOf past call).findSome? clock? = some now := h
  rw [firstClock?, momentsOf_append, List.findSome?_append, h]
  rfl

/-- A request to begin makes sense, and its deadline can be represented by the time told first. -/
structure Granted (c : Coordinator) (participants : SortedSet ProcessId) (operations : Assignment)
    (timeout : Duration) (past : List (Moment c.role)) (call : ℕ) : Prop where
  /-- It makes sense. -/
  sensible : ∀ request, ¬Misconceived participants operations request
  /-- Its deadline can be represented. -/
  inTime : ∃ now, firstClock? past call = some now ∧ now.add? timeout ≠ none

theorem Granted.mono {participants : SortedSet ProcessId} {operations : Assignment}
    {timeout : Duration} {past later : List (Moment self.role)}
    (h : self.Granted participants operations timeout past call) (sub : past <+: later) :
    self.Granted participants operations timeout later call where
  sensible := h.sensible
  inTime := by
    obtain ⟨now, first, inTime⟩ := h.inTime
    exact ⟨now, firstClock?_of_prefix first sub, inTime⟩

/-- What comes of a begin: it is refused at once, or once the time is told, and has then done
nothing else; or it fails because it could not store what its transaction can not go on without; or
its transaction is decided as the votes determine. -/
theorem meets_begin {participants : SortedSet ProcessId} {operations : Assignment}
    {timeout : Duration} {ok : CommitOutcome → Memory → Scene self.role → Prop}
    {err : CommitError → Memory → Scene self.role → Prop}
    (h : self.Calm call (.begin participants operations timeout) s memory)
    (undrawn : ∀ tx, ¬self.Drawn s.past call tx) (untold : firstClock? s.past call = none)
    (refused : ∀ request, Misconceived participants operations request →
      err (.invalidRequest request) memory s)
    (late : ∀ now memory' s',
      self.Regains call (.begin participants operations timeout) s memory (.inl .now) now s'
        memory' → firstClock? s'.past call = some now → now.add? timeout = none →
      err (.invalidRequest (.timeoutRange timeout)) memory' s')
    (begun : ∀ outcome t d memory' s', self.Granted participants operations timeout s'.past call →
      self.Drawn s'.past call t.id → self.Concludes s'.log t.id t d outcome →
      t.participants = participants → d = t.tally.getD .abort →
      self.Calm call (.begin participants operations timeout) s' memory' → ok outcome memory' s')
    (failed : ∀ failure memory' s', self.Granted participants operations timeout s'.past call →
      self.discipline.Leaves call (.begin participants operations timeout) s' memory' →
      self.Misses call s failure s' → err failure memory' s') :
    (self.begin participants operations timeout).Meets
      (self.discipline.contract call (.begin participants operations timeout)) ok err memory s := by
  refine meets_begin_of refused fun sensible => ?_
  refine h.meets_ask rfl trivial ?_
  intro now memory₁ s₁ regains₁
  have first : firstClock? s₁.past call = some now := by
    have untold : (momentsOf s.past call).findSome? clock? = none := untold
    rw [firstClock?, regains₁.own, List.findSome?_append, untold]
    rfl
  refine ⟨late now memory₁ s₁ regains₁ first, fun deadline inTime => ?_⟩
  have granted : self.Granted participants operations timeout s₁.past call :=
    ⟨sensible, now, first, by simp [inTime]⟩
  have undrawn₁ : ∀ tx, ¬self.Drawn s₁.past call tx := by
    rintro tx ⟨log, drawn⟩
    rcases mem_or_of_momentsOf regains₁.own drawn rfl with drawn | drawn
    · exact undrawn tx ⟨log, drawn⟩
    · simp at drawn
  refine regains₁.calm.meets_freshId undrawn₁ ?_
  rintro _ memory₂ s₂ calm₂ drawn fresh _ grows₂ t e rfl rfl rfl opens
  have about := opens.transaction
  -- whatever fails from here on has not stored a vital entry
  have fails : ∀ s₃, s₂.Grows s₃ → ∀ failure memory' s',
      self.discipline.Leaves call (.begin t.participants t.operations timeout) s' memory' →
      self.Misses call s₃ failure s' → err failure memory' s' := by
    intro s₃ grows₃ failure memory' s' leaves misses
    have misses := misses.of_grows (grows₂.trans grows₃)
    exact failed failure memory' s' (granted.mono misses.past) leaves
      (misses.of_grows regains₁.toGrows)
  refine calm₂.meets_append opens.actor (about ▸ drawn)
    (.begin (about ▸ drawn) (about ▸ fresh) opens.begins ⟨timeout, calm₂.started⟩) ?_ ?_
  · intro memory₃ s₃ stores
    have replay : Transaction.replay (Log.history s₂.log self.id t.id ++ [e]) = .ok t := by
      simp only [fresh, List.nil_append, Transaction.replay, opens.begins]
      rfl
    have works := Works.of_stores stores calm₂.unfailed about.symm drawn ⟨call, drawn⟩ replay
    have start := Transaction.Advances.start opens.init
    refine meets_transition works (by simp [opens.init]) (by simp) (by simp) ?_ ?_ ?_
    · intro memory₄ s₄ advances works leads
      have preparing := Transaction.state_record advances
      have grows₄ := stores.toGrows.trans leads.toGrows
      refine meets_drive works (by simp [preparing]) (by simp [preparing]) ?_
        fun failure memory' s' _ => fails s₄ grows₄ failure memory' s'
      intro outcome t' d memory' s' concludes heeds _ calm leads'
      have undecided : (t.record .preparing .none).decision = none :=
        works.wellFormed.undecided.2 (.inr preparing)
      have same : t'.id = e.transaction := by
        rw [concludes.id, about, Transaction.id_record]
      have he : e ∈ Log.history s'.log self.id t'.id := by
        rw [same]
        refine (Log.history_prefix (leads.log.trans leads'.log) _ _).subset ?_
        rw [stores.history]
        exact List.mem_append_right _ (.head _)
      have grows := grows₄.trans leads'.toGrows
      have begins := (Transaction.ofBegin?_eq_some opens.begins).1
      have members := ((Transaction.summarizes_of_replay concludes.logged).agree begins he).1
      refine begun outcome t' d memory' s' (granted.mono (grows₂.trans grows).past) ?_
        { concludes with id := rfl } members (heeds undecided) calm
      rw [same, about]
      exact drawn.mono grows.past
    · intro memory' s' repeats _ _
      exact absurd repeats Transaction.not_repeats_none
    · intro failure memory' s' leaves _ misses
      exact fails s₃ stores.toGrows failure memory' s' leaves (misses start (by simp [Spare]))
  · intro failure memory' s' leaves misses _
    obtain ⟨members, operations', deadline', payload⟩ := opens.payload
    exact fails s₂ (.refl _) _ memory' s' leaves (misses (by simp [Entry.isVital, payload]))

/-! ## All operations -/

/-- Every operation keeps to the discipline, whatever it is answered. -/
theorem obeyed : self.discipline.Obeyed := by
  intro s call op sound new _
  have calm : self.Calm call op (s.note call (.started op)) s.memory := calm_start sound new
  cases op with
  | begin participants operations timeout =>
    have undrawn : ∀ tx, ¬self.Drawn (s.note call (.started (.begin participants operations
        timeout))).past call tx := by
      rintro tx ⟨log, drawn⟩
      rcases List.mem_append.1 drawn with drawn | drawn
      · exact new _ drawn rfl
      · cases List.mem_singleton.1 drawn
    have untold : firstClock? (s.note call (.started (.begin participants operations
        timeout))).past call = none := by
      rw [firstClock?, momentsOf_note, momentsOf_others new]
      rfl
    refine Action.Meets.program (meets_begin calm undrawn untold ?_ ?_ ?_ ?_)
    · exact fun _ _ => ⟨calm.toLeaves, trivial⟩
    · exact fun _ _ _ regains _ _ => ⟨regains.calm.toLeaves, trivial⟩
    · intro outcome t d memory' s' _ _ concludes _ _ calm
      exact ⟨calm.toLeaves, t, d, concludes.logged, concludes.transaction, concludes.decided,
        concludes.same⟩
    · exact fun _ _ _ _ leaves _ => ⟨leaves, trivial⟩
  | recover =>
    refine Action.Meets.program (meets_recover calm ?_ ?_ ?_)
    · exact fun _ _ _ _ _ _ _ calm => ⟨calm.toLeaves, trivial⟩
    · exact fun _ _ _ _ _ leaves => ⟨leaves, trivial⟩
    · exact fun _ _ _ _ _ _ _ leaves => ⟨leaves, trivial⟩
  | queryState tx =>
    refine Action.Meets.program (meets_queryState calm ?_ ?_ ?_)
    · exact fun _ _ calm unknown => ⟨calm.toLeaves, unknown⟩
    · exact fun _ _ _ calm id logged => ⟨calm.toLeaves, id, logged⟩
    · exact fun _ _ _ leaves => ⟨leaves, trivial⟩
  | queryDecision tx =>
    refine Action.Meets.program (meets_queryDecision calm ?_ ?_)
    · exact fun _ _ _ calm answered => ⟨calm.toLeaves, answered⟩
    · exact fun _ _ _ leaves => ⟨leaves, trivial⟩
  | forget tx =>
    refine Action.Meets.program (meets_forget calm ?_ ?_)
    · exact ⟨calm.toLeaves, trivial⟩
    · exact fun _ => ⟨calm.toLeaves, trivial⟩

end AtomicCommit.Coordinator

import AtomicCommit.Proofs.Coordinator.Driving
import AtomicCommit.Proofs.Log.Scan

/-!
# Recovering under the discipline

A recovery replays what its scan of the log has found and finishes one transaction after another.
Finishing one leaves the histories of the others as they are, so what the report says of each is
still true at the end.

## Main definitions

* `Coordinator.Hinders`, `Coordinator.Stops`: why a recovery can not finish a transaction, and why
  it stops.
* `Coordinator.Pending`: the transactions that a recovery has still to finish.
* `Coordinator.Accounts`: what a recovery has done to the transactions it has finished, and how the
  report has grown.
* `Coordinator.Finds`: what a recovery has found.

## Main results

* `Coordinator.meets_recover`: a recovery accounts for all that it has found, or says why not.
-/

namespace AtomicCommit

/-- Whether an actor has logged a decision on a transaction. -/
def Log.isDecided (entries : List Entry) (actor : ProcessId) (transaction : TransactionId) : Bool :=
  (history entries actor transaction).any fun e => e.payload.isDecision

theorem Log.isDecided_congr {log log' : List Entry} {actor : ProcessId} {tx : TransactionId}
    (same : history log' actor tx = history log actor tx) :
    isDecided log' actor tx = isDecided log actor tx := by
  rw [isDecided, same, isDecided]

namespace Coordinator

variable {self : Coordinator} {call : ℕ} {op : Operation} {s s₁ s' : Scene self.role}
  {memory : Memory} {t t' : Transaction} {tx : TransactionId}

/-- The transaction that a history replays to is the one it is about. -/
theorem id_of_replay_history {log : List Entry} {actor : ProcessId}
    (h : Transaction.replay (Log.history log actor tx) = .ok t) : t.id = tx := by
  obtain ⟨e, he, begin⟩ := (Transaction.summarizes_of_replay h).begun
  exact begin.transaction.symm.trans (Log.mem_history_iff.1 he).2.1

/-- Why a call can not finish a transaction: that is undecided and an entry on the way to its
decision has not been stored, or a time that was told is too late for a deadline to be reckoned from
it. -/
inductive Hinders (c : Coordinator) (past : List (Moment c.role)) (call : ℕ) (t : Transaction) :
    CommitError → Prop where
  /-- An entry has not been stored. -/
  | refused {cause : LogError} (undecided : t.decision = none) (failed : c.Failed past call) :
    Hinders c past call t (.log cause)
  /-- It is too late. -/
  | late {now : Timestamp} {log : List Entry}
    (told : ⟨call, .answered (.inl .now) now, log⟩ ∈ past)
    (late : now.add? c.config.prepareTimeout = none) :
    Hinders c past call t (.invalidRequest (.timeoutRange c.config.prepareTimeout))

theorem Hinders.mono {past later : List (Moment self.role)} {failure : CommitError}
    (h : self.Hinders past call t failure) (sub : past <+: later) :
    self.Hinders later call t failure := by
  cases h with
  | refused undecided failed => exact .refused undecided (failed.mono sub)
  | late told late => exact .late (sub.subset told) late

theorem Misses.hinders {failure : CommitError} (h : self.Misses call s failure s')
    (undecided : t.decision = none) : self.Hinders s'.past call t failure := by
  obtain ⟨cause, rfl⟩ := h.refused
  exact .refused undecided h.noted

theorem meets_resume {ok : CommitOutcome → Memory → Scene self.role → Prop}
    {err : CommitError → Memory → Scene self.role → Prop} (h : self.Works call op s memory t)
    (unfinished : t.state ≠ .done)
    (resumed : ∀ outcome t' memory' s', t'.id = t.id → self.Logged s'.log t' →
      (∃ d, t'.decision = some d) → (outcome.fullyAcknowledged = true ↔ t'.state = .done) →
      self.Resent s'.past call t → self.Calm call op s' memory' →
      self.Leads call op t.id s s' → ok outcome memory' s')
    (failed : ∀ failure memory' s', s.past <+: s'.past → self.Hinders s'.past call t failure →
      self.discipline.Leaves call op s' memory' → err failure memory' s') :
    (self.resume t).Meets (self.discipline.contract call op) ok err memory s := by
  refine meets_resume_of
    (I := fun t' memory' s' => (t' = t ∨ t.decision = none ∧ t'.decision = none) ∧
      t'.state ≠ .done ∧ t'.state ≠ .init ∧ self.Reaches call op s t.id t' memory' s') ?_ ?_ ?_
  · exact fun started => ⟨.inl rfl, unfinished, started, h.reaches⟩
  · intro initial
    have undecided : t.decision = none := h.wellFormed.undecided.2 (.inl initial)
    refine meets_transition h unfinished (by simp) (by simp) ?_ ?_ ?_
    · intro memory' s' advances works leads
      have preparing := Transaction.state_record advances
      exact ⟨.inr ⟨undecided, undecided⟩, by simp [preparing], by simp [preparing],
        h.reaches.next works leads (by simp)⟩
    · intro memory' s' repeats _ _
      exact absurd repeats Transaction.not_repeats_none
    · intro failure memory' s' leaves _ misses
      have misses := misses (Transaction.Advances.start initial) (by simp [Spare])
      exact failed failure memory' s' misses.past (misses.hinders undecided) leaves
  · rintro t₁ memory₁ s₁ ⟨same, unfinished, started, reaches⟩
    rw [meets_deadlineAfter]
    refine reaches.toWorks.meets_ask unfinished rfl trivial ?_
    intro now memory₂ s₂ works leads noted
    have grown := (reaches.next works leads rfl).past
    refine ⟨fun deadline _ => ?_, fun late =>
      failed _ memory₂ s₂ grown (.late noted late) (works.calm unfinished).toLeaves⟩
    refine meets_drive works unfinished started ?_ ?_
    · intro outcome t' d memory' s' concludes _ resent calm leads'
      have leads := (reaches.next works leads rfl).toLeads
      have resent : self.Resent s'.past call t := by
        rcases same with rfl | ⟨undecided, -⟩
        · exact resent
        · intro d decided
          simp [undecided] at decided
      exact resumed outcome t' memory' s' (concludes.id.trans reaches.about) concludes.logged
        ⟨d, concludes.decided⟩ concludes.acknowledged resent calm
        (leads.trans (reaches.about ▸ leads'))
    · intro failure memory' s' undecided leaves misses
      refine failed failure memory' s' (grown.trans misses.past) (misses.hinders ?_) leaves
      rcases same with rfl | ⟨undecided, -⟩ <;> exact undecided

/-- The transactions that a recovery has still to finish. -/
structure Pending (c : Coordinator) (log : List Entry) (transactions : List Transaction) :
    Prop where
  /-- They are different. -/
  distinct : transactions.Pairwise fun t t' => t.id ≠ t'.id
  /-- The log has them. -/
  logged : ∀ t ∈ transactions, c.Logged log t
  /-- They are unfinished. -/
  unfinished : ∀ t ∈ transactions, t.state ≠ .done

/-- Each transaction of a scan replays from its history. -/
theorem forall₂_of_scan {log : List Entry} {transactions : List Transaction}
    (h : replayAll (Log.scanIncomplete log self.id) = .ok transactions) :
    List.Forall₂ (fun tx t => Transaction.replay (Log.history log self.id tx) = .ok t)
      (Log.transactions (Log.scanIncomplete log self.id)) transactions := by
  rw [replayAll, Log.groupByTransaction_scan] at h
  exact List.forall₂_map_left_iff.1 (Log.forall₂_of_mapM h)

/-- A scan replays to the transactions that are unfinished. -/
theorem ids_of_scan {log : List Entry} {transactions : List Transaction}
    (h : replayAll (Log.scanIncomplete log self.id) = .ok transactions) :
    Log.transactions (Log.scanIncomplete log self.id) = transactions.map Transaction.id := by
  rw [← List.forall₂_eq_eq_eq, List.forall₂_map_right_iff]
  exact (forall₂_of_scan h).imp fun tx t replay => (id_of_replay_history replay).symm

/-- What a scan replays to is pending. -/
theorem pending_of_scan {log : List Entry} {transactions : List Transaction}
    (h : replayAll (Log.scanIncomplete log self.id) = .ok transactions) :
    self.Pending log transactions := by
  have replays := forall₂_of_scan h
  constructor
  · rw [← List.pairwise_map, ← List.Nodup, ← ids_of_scan h]
    exact Log.nodup_transactions _
  · intro t ht
    obtain ⟨tx, -, replay⟩ := Log.exists_of_forall₂ replays ht
    rw [Logged, id_of_replay_history replay]
    exact replay
  · intro t ht done
    obtain ⟨tx, listed, replay⟩ := Log.exists_of_forall₂ replays ht
    exact (Log.isIncomplete_iff_of_replay replay).1 (Log.mem_transactions_scan_iff.1 listed) done

/-- Every scan replays. -/
theorem Calm.exists_replayAll (h : self.Calm call op s memory) :
    ∃ transactions, replayAll (Log.scanIncomplete s.log self.id) = .ok transactions := by
  rw [replayAll, Log.groupByTransaction_scan]
  refine Log.exists_mapM fun history hh => ?_
  obtain ⟨tx, listed, rfl⟩ := List.mem_map.1 hh
  have incomplete := Log.mem_transactions_scan_iff.1 listed
  cases h.kept tx with
  | unknown empty _ =>
    have empty : Log.history s.log self.id tx = [] := empty
    simp [Log.isIncomplete, Log.lastState?, empty] at incomplete
  | @known t _ replay _ _ => exact ⟨t, replay⟩

/-- What is in memory of a transaction that is logged is just that. -/
theorem meets_restore {ε : Type} {c : Contract (interface.sharing Memory) (Scene self.role)}
    {ok : Transaction → Memory → Scene self.role → Prop}
    {err : ε → Memory → Scene self.role → Prop} (h : self.Calm call op s memory)
    (claimed : t.id ∈ self.claims s.past call op) (logged : self.Logged s.log t)
    (restored : ∀ memory', self.Works call op s memory' t → ok t memory' s) :
    (restore t : Action interface Memory ε Transaction).Meets c ok err memory s := by
  rw [restore, Action.meets_bind, Action.meets_get]
  cases cached : memory.get? t.id with
  | some t' =>
    obtain ⟨id, logged', -, -⟩ := h.of_cached cached
    obtain rfl : t' = t := by
      rw [Logged, id] at logged'
      exact Except.ok.inj (logged'.symm.trans logged)
    exact restored memory (h.works claimed cached)
  | none =>
    have drawn : ∃ call, self.Drawn s.past call t.id := by
      cases h.kept t.id with
      | unknown empty _ => exact absurd empty (Transaction.replay_ne_nil logged)
      | known _ _ drawn _ => exact drawn
    refine restored _ ⟨?_, ?_, h.started, h.unfailed, claimed, drawn, logged, ?_⟩
    · intro tx ne
      simpa only [Discipline.KeptIn, SortedMap.get?_insert, if_neg ne] using h.kept tx
    · intro tx unclaimed
      have ne : tx ≠ t.id := fun eq => unclaimed (eq ▸ claimed)
      rw [SortedMap.get?_insert, if_neg ne]
      exact h.frame tx unclaimed
    · simp

theorem meets_finish {report : RecoveryReport}
    {ok : RecoveryReport → Memory → Scene self.role → Prop}
    {err : RecoveryError → Memory → Scene self.role → Prop} (h : self.Calm call op s memory)
    (claimed : t.id ∈ self.claims s.past call op) (logged : self.Logged s.log t)
    (unfinished : t.state ≠ .done)
    (finished : ∀ done t' memory' s', t'.id = t.id → self.Logged s'.log t' →
      (∃ d, t'.decision = some d) → (done = true ↔ t'.state = .done) →
      self.Resent s'.past call t → self.Calm call op s' memory' →
      self.Leads call op t.id s s' → ok (report.add t.id t.decision.isSome done) memory' s')
    (failed : ∀ failure memory' s', s.past <+: s'.past → self.Hinders s'.past call t failure →
      self.discipline.Leaves call op s' memory' → err (.ofCommit failure) memory' s') :
    (self.finish report t).Meets (self.discipline.contract call op) ok err memory s := by
  rw [finish, Action.meets_bind]
  refine meets_restore h claimed logged ?_
  intro memory₁ works
  rw [Action.meets_bind, Action.meets_mapError]
  exact meets_resume works unfinished (fun _ => finished _) failed

/-- What a recovery has done since a scene to some of the transactions that it found, and how its
report has grown: each of them is decided and reported by what was known of it and by whether it is
done, and the histories of all others are as they were. -/
structure Accounts (c : Coordinator) (transactions : List Transaction)
    (report report' : RecoveryReport) (s s' : Scene c.role) : Prop extends s.Grows s' where
  /-- Those without a decision have been decided. -/
  decided : report'.decided = report.decided ++
    (transactions.map Transaction.id).filter fun tx => !Log.isDecided s.log c.id tx
  /-- The others are delivered again. -/
  redelivered : report'.redelivered = report.redelivered ++
    (transactions.map Transaction.id).filter fun tx => Log.isDecided s.log c.id tx
  /-- What is done now is completed. -/
  completed : report'.completed = report.completed ++
    (transactions.map Transaction.id).filter fun tx => !Log.isIncomplete s'.log c.id tx
  /-- The rest is undelivered. -/
  undelivered : report'.undelivered = report.undelivered ++
    (transactions.map Transaction.id).filter fun tx => Log.isIncomplete s'.log c.id tx
  /-- All of them are decided. -/
  settled : ∀ t ∈ transactions, Log.isDecided s'.log c.id t.id = true
  /-- Nothing else is changed. -/
  others : ∀ tx, (∀ t ∈ transactions, t.id ≠ tx) →
    Log.history s'.log c.id tx = Log.history s.log c.id tx

/-- A transaction that replays has a decision exactly if one is logged. -/
theorem Logged.isDecided_eq {log : List Entry} (h : self.Logged log t) :
    Log.isDecided log self.id t.id = t.decision.isSome := by
  have summary := Transaction.summarizes_of_replay h
  rw [Bool.eq_iff_iff, Log.isDecided, List.any_eq_true, Option.isSome_iff_exists]
  simp only [summary.decision, List.mem_map]
  constructor
  · rintro ⟨e, he, decides⟩
    cases payload : e.payload <;> simp [payload, Payload.isDecision] at decides
    exact ⟨_, e, he, payload⟩
  · rintro ⟨d, e, he, payload⟩
    exact ⟨e, he, by rw [payload]; rfl⟩

theorem Accounts.refl (report : RecoveryReport) (s : Scene self.role) :
    self.Accounts [] report report s s where
  toGrows := .refl s
  decided := by simp
  redelivered := by simp
  completed := by simp
  undelivered := by simp
  settled := by simp
  others := by simp

/-- An account holds also since an earlier scene with the same histories. -/
theorem Accounts.of_same {transactions : List Transaction} {report report' : RecoveryReport}
    (h : self.Accounts transactions report report' s₁ s') (grows : s.Grows s₁)
    (same : ∀ tx, Log.history s₁.log self.id tx = Log.history s.log self.id tx) :
    self.Accounts transactions report report' s s' where
  toGrows := grows.trans h.toGrows
  decided := by simp only [h.decided, Log.isDecided_congr (same _)]
  redelivered := by simp only [h.redelivered, Log.isDecided_congr (same _)]
  completed := h.completed
  undelivered := h.undelivered
  settled := h.settled
  others tx other := (h.others tx other).trans (same tx)

/-- What is reported of a transaction remains true while others are finished. -/
theorem Accounts.cons {rest : List Transaction} {report report' : RecoveryReport} {done : Bool}
    (logged : self.Logged s.log t) (leads : self.Leads call .recover t.id s s₁)
    (id : t'.id = t.id) (logged' : self.Logged s₁.log t') (decided : ∃ d, t'.decision = some d)
    (finished : done = true ↔ t'.state = .done) (different : ∀ t₁ ∈ rest, t.id ≠ t₁.id)
    (h : self.Accounts rest (report.add t.id t.decision.isSome done) report' s₁ s') :
    self.Accounts (t :: rest) report report' s s' := by
  have untouched : ∀ tx, tx ≠ t.id →
      Log.history s₁.log self.id tx = Log.history s.log self.id tx :=
    fun tx ne => leads.history tx trivial ne
  have kept : Log.history s'.log self.id t.id = Log.history s₁.log self.id t.id :=
    h.others t.id fun t₁ ht₁ => (different t₁ ht₁).symm
  have known : Log.isDecided s.log self.id t.id = t.decision.isSome := logged.isDecided_eq
  have later : Log.isIncomplete s'.log self.id t.id = !done := by
    rw [id.symm] at kept ⊢
    rw [Log.isIncomplete_congr kept, Bool.eq_iff_iff, Log.isIncomplete_iff_of_replay logged',
      Ne, ← finished]
    simp
  have before : ∀ tx ∈ rest.map Transaction.id,
      Log.isDecided s₁.log self.id tx = Log.isDecided s.log self.id tx := by
    intro tx listed
    obtain ⟨t₁, ht₁, rfl⟩ := List.mem_map.1 listed
    exact Log.isDecided_congr (untouched t₁.id (different t₁ ht₁).symm)
  have redelivered := List.filter_congr before
  have undecided : (rest.map Transaction.id).filter (fun tx => !Log.isDecided s₁.log self.id tx) =
      (rest.map Transaction.id).filter fun tx => !Log.isDecided s.log self.id tx :=
    List.filter_congr fun tx listed => by rw [before tx listed]
  constructor
  · exact leads.toGrows.trans h.toGrows
  · rw [h.decided, undecided, RecoveryReport.add, List.map_cons, List.filter_cons, known]
    cases t.decision <;> simp
  · rw [h.redelivered, redelivered, RecoveryReport.add, List.map_cons, List.filter_cons, known]
    cases t.decision <;> simp
  · rw [h.completed, RecoveryReport.add, List.map_cons, List.filter_cons, later]
    cases done <;> simp
  · rw [h.undelivered, RecoveryReport.add, List.map_cons, List.filter_cons, later]
    cases done <;> simp
  · intro t₁ ht₁
    rcases List.mem_cons.1 ht₁ with rfl | ht₁
    · obtain ⟨d, decided⟩ := decided
      rw [Log.isDecided_congr kept, ← id, logged'.isDecided_eq, decided]
      rfl
    · exact h.settled t₁ ht₁
  · intro tx other
    rw [h.others tx fun t₁ ht₁ => other t₁ (.tail _ ht₁)]
    exact untouched tx (other t (.head _)).symm

/-- Why a recovery stops before it has finished these transactions: it has been hindered at one of
them when it had dealt with those before it. -/
inductive Stops (c : Coordinator) (past : List (Moment c.role)) (call : ℕ)
    (transactions : List Transaction) : RecoveryError → Prop where
  /-- One can not be finished. -/
  | hindered {before rest : List Transaction} {t : Transaction} {failure : CommitError}
    (split : transactions = before ++ t :: rest) (resent : ∀ t' ∈ before, c.Resent past call t')
    (hinders : c.Hinders past call t failure) : Stops c past call transactions (.ofCommit failure)

theorem Stops.first {past : List (Moment self.role)} {rest : List Transaction}
    {failure : CommitError} (h : self.Hinders past call t failure) :
    self.Stops past call (t :: rest) (.ofCommit failure) :=
  .hindered (List.nil_append _).symm (List.forall_mem_nil _) h

theorem Stops.mono {past later : List (Moment self.role)} {transactions : List Transaction}
    {failure : RecoveryError} (h : self.Stops past call transactions failure)
    (sub : past <+: later) : self.Stops later call transactions failure := by
  obtain ⟨split, resent, hinders⟩ := h
  exact .hindered split (fun t ht => (resent t ht).mono sub) (hinders.mono sub)

theorem Stops.cons {past : List (Moment self.role)} {transactions : List Transaction}
    {failure : RecoveryError} (h : self.Stops past call transactions failure)
    (resent : self.Resent past call t) : self.Stops past call (t :: transactions) failure := by
  obtain ⟨rfl, resents, hinders⟩ := h
  exact .hindered rfl (List.forall_mem_cons.2 ⟨resent, resents⟩) hinders

theorem meets_finishAll {transactions : List Transaction} {report : RecoveryReport}
    {ok : RecoveryReport → Memory → Scene self.role → Prop}
    {err : RecoveryError → Memory → Scene self.role → Prop}
    (h : self.Calm call .recover s memory) (pending : self.Pending s.log transactions)
    (finished : ∀ report' memory' s', self.Accounts transactions report report' s s' →
      (∀ t ∈ transactions, self.Resent s'.past call t) → self.Calm call .recover s' memory' →
      ok report' memory' s')
    (failed : ∀ failure memory' s', s.past <+: s'.past →
      self.Stops s'.past call transactions failure →
      self.discipline.Leaves call .recover s' memory' → err failure memory' s') :
    (transactions.foldlM self.finish report).Meets (self.discipline.contract call .recover) ok err
      memory s := by
  induction transactions generalizing report memory s with
  | nil => exact finished report memory s (.refl report s) (List.forall_mem_nil _) h
  | cons t rest ih =>
    obtain ⟨distinct, logged, unfinished⟩ := pending
    obtain ⟨different, distinct⟩ := List.pairwise_cons.1 distinct
    rw [List.foldlM_cons, Action.meets_bind]
    refine meets_finish h trivial (logged t (.head _)) (unfinished t (.head _)) ?_ ?_
    · intro done t' memory₁ s₁ id logged' decided done_iff resent calm leads
      refine ih calm ⟨distinct, ?_, fun t₁ ht₁ => unfinished t₁ (.tail _ ht₁)⟩ ?_ ?_
      · intro t₁ ht₁
        rw [Logged, leads.history t₁.id trivial (different t₁ ht₁).symm]
        exact logged t₁ (.tail _ ht₁)
      · intro report' memory' s' accounts resents calm
        refine finished report' memory' s' ?_ ?_ calm
        · exact .cons (logged t (.head _)) leads id logged' decided done_iff different accounts
        · exact List.forall_mem_cons.2 ⟨resent.mono accounts.past, resents⟩
      · -- what was sent of the first one is sent still when another one is stuck
        intro failure memory' s' grown stops
        exact failed failure memory' s' (leads.past.trans grown) (stops.cons (resent.mono grown))
    · intro failure memory' s' grown hinders
      exact failed _ memory' s' grown (.first hinders)

/-- What a scan of a log is replayed to. -/
structure Finds (c : Coordinator) (log : List Entry) (transactions : List Transaction) : Prop where
  /-- It is all that is unfinished, in the order in which it was begun. -/
  ids : transactions.map Transaction.id = Log.unfinished log c.id
  /-- The log has it. -/
  logged : ∀ t ∈ transactions, c.Logged log t

/-- What is logged and unfinished is found. -/
theorem Finds.mem {log : List Entry} {transactions : List Transaction}
    (h : self.Finds log transactions) (logged : self.Logged log t) (unfinished : t.state ≠ .done) :
    t ∈ transactions := by
  have listed : t.id ∈ Log.unfinished log self.id :=
    Log.mem_unfinished_iff.2 ((Log.isIncomplete_iff_of_replay logged).2 unfinished)
  rw [← h.ids] at listed
  obtain ⟨t', found, same⟩ := List.mem_map.1 listed
  have logged' := h.logged t' found
  rw [Logged, same] at logged'
  obtain rfl := Except.ok.inj (logged'.symm.trans logged)
  exact found

/-- What comes of a recovery. -/
theorem meets_recover {ok : RecoveryReport → Memory → Scene self.role → Prop}
    {err : RecoveryError → Memory → Scene self.role → Prop} (h : self.Calm call .recover s memory)
    (recovered : ∀ transactions report memory' s', self.Finds s.log transactions →
      self.Accounts transactions {} report s s' →
      (∀ t ∈ transactions, self.Resent s'.past call t) → self.Calm call .recover s' memory' →
      ok report memory' s')
    (unread : ∀ cause memory' s', s.past <+: s'.past →
      ⟨call, .answered (.inl (.scan self.id)) (.error cause : Except LogError _), s'.log⟩ ∈
        s'.past →
      self.discipline.Leaves call .recover s' memory' → err (.log cause) memory' s')
    (stopped : ∀ transactions failure memory' s', s.past <+: s'.past →
      self.Finds s.log transactions → self.Stops s'.past call transactions failure →
      self.discipline.Leaves call .recover s' memory' → err failure memory' s') :
    self.recover.Meets (self.discipline.contract call .recover) ok err memory s := by
  rw [recover, Action.meets_bind, Action.meets_mapError, Host.meets_scan]
  refine ⟨h.asks rfl trivial, ?_⟩
  intro found memory₁ s₁ answers
  have regains := h.regains answers rfl
  refine ⟨?_, ?_⟩
  · rintro entries rfl
    obtain rfl : entries = Log.scanIncomplete s₁.log self.id := regains.host.2 entries rfl
    obtain ⟨transactions, replayed⟩ := regains.calm.exists_replayAll
    rw [Action.meets_bind, Action.meets_ofExcept, replayed]
    refine ⟨?_, by simp⟩
    rintro _ ⟨⟩
    have pending := pending_of_scan replayed
    have same : ∀ tx, Log.history s₁.log self.id tx = Log.history s.log self.id tx :=
      fun tx => regains.history tx (claims_asked trivial)
    have finds : self.Finds s.log transactions := by
      constructor
      · rw [← ids_of_scan replayed, Log.transactions_scanIncomplete]
        exact Log.unfinished_congr (Log.own_eq_of_histories regains.log same)
      · intro t ht
        rw [Logged, ← same]
        exact pending.logged t ht
    refine meets_finishAll regains.calm pending ?_ ?_
    · intro report memory' s' accounts
      exact recovered transactions report memory' s' finds (accounts.of_same regains.toGrows same)
    · exact fun failure memory' s' grown =>
        stopped transactions failure memory' s' (regains.past.trans grown) finds
  · rintro cause rfl
    exact unread cause _ _ regains.past regains.noted regains.calm.toLeaves

end Coordinator

end AtomicCommit

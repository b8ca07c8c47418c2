import AtomicCommit.Proofs.Participant.Handling

/-!
# A participant keeps to its discipline

Every operation of a participant keeps to the discipline, whatever it is answered. Queries change
nothing, forgetting only loses what the log has, and a recovery puts back into memory what it has
read, while nobody else can change it, and then resolves one transaction after another.

## Main results

* `Participant.obeyed`: every operation keeps to the discipline.
-/

namespace AtomicCommit.Participant

variable {self : ProcessId} {call : ℕ} {op : Operation} {s s' : Scene (role self)}
  {memory memory' : Memory} {tx : TransactionId}

/-! ## Forgetting -/

/-- A copy that is dropped keeps the log to be read. -/
theorem meets_forget {ok : Bool → Memory → Scene (role self) → Prop}
    {err : CommitError → Memory → Scene (role self) → Prop} (h : Attends self call op s memory tx)
    (forgotten : ∀ found memory', (discipline self).Calm call op s memory' → ok found memory' s)
    (failed : ∀ failure, err failure memory s) :
    (forget self tx).Meets ((discipline self).contract call op) ok err memory s := by
  refine meets_forget_of (fun _ => forgotten false memory h.toCalm) (fun _ _ _ => ?_) failed
  refine forgotten true _ ⟨⟨?_, ?_⟩, h.started⟩
  · intro tx'
    by_cases ne : tx' = tx
    · subst ne
      simpa only [Discipline.KeptIn, SortedMap.get?_erase, if_true] using
        discipline_lawful.kept_none _ _ _ _ (h.kept tx')
    · simpa only [Discipline.KeptIn, SortedMap.get?_erase, if_neg ne] using h.kept tx'
  · intro tx' unlocked
    have ne : tx' ≠ tx := fun eq => unlocked (eq ▸ h.locked)
    rw [SortedMap.get?_erase, if_neg ne]
    exact h.frame tx' unlocked

/-! ## Restoring -/

/-- What the log says may be put into memory. -/
theorem Attends.insert {r : Record} (h : Attends self call op s memory r.transaction)
    (known : Sees self s.log r.transaction (some r)) :
    (discipline self).Calm call op s (memory.insert r.transaction r) where
  kept tx := by
    by_cases ne : tx = r.transaction
    · subst ne
      refine .known known fun r' hr => ?_
      simpa using hr.symm
    · simpa only [Discipline.KeptIn, SortedMap.get?_insert, if_neg ne] using h.kept tx
  frame tx unlocked := by
    have ne : tx ≠ r.transaction := fun eq => unlocked (eq ▸ h.locked)
    rw [SortedMap.get?_insert, if_neg ne]
    exact h.frame tx unlocked
  started := h.started

/-- The transactions that a call has to itself stay as they are. -/
structure Keeps (p : ProcessId) (call : ℕ) (op : Operation) (s s' : Scene (role p)) : Prop extends
    s.Grows s' where
  /-- They are the same as before. -/
  locks : locks p s'.past call op = locks p s.past call op
  /-- Their histories are the same. -/
  history : ∀ tx ∈ Participant.locks p s.past call op,
    Log.history s'.log p tx = Log.history s.log p tx

theorem Keeps.refl (s : Scene (role self)) : Keeps self call op s s :=
  ⟨.refl s, rfl, fun _ _ => rfl⟩

/-- A record is put back, and the resource manager takes hold of what it had prepared. -/
theorem meets_restore {r : Record} {ok : Bool → Memory → Scene (role self) → Prop}
    {err : CommitError → Memory → Scene (role self) → Prop}
    (h : Attends self call op s memory r.transaction)
    (known : Sees self s.log r.transaction (some r))
    (uses : ∀ payload, r.payload = some payload →
      Uses self s.past s.log call (.restore payload) r.transaction)
    (restored : ∀ new memory' s', (discipline self).Calm call op s' memory' →
      Keeps self call op s s' →
      (dealings self s'.past call = dealings self s.past call ∨ ∃ payload,
        r.payload = some payload ∧
        dealings self s'.past call = dealings self s.past call ++ [(.reacquired, payload)]) →
      ok new memory' s')
    (failed : ∀ failure memory' s', (discipline self).Calm call op s' memory' →
      err failure memory' s') :
    (restore r).Meets ((discipline self).contract call op) ok err memory s := by
  refine meets_restore_of (fun _ => restored false memory s h.toCalm (.refl s) (.inl rfl)) ?_
    fun _ _ => restored true _ s (h.insert known) (.refl s) (.inl rfl)
  intro _ payload _ carried
  refine h.toCalm.meets_ask discipline_lawful rfl ⟨_, uses payload carried⟩ ?_
  intro held memory₁ s₁ regains
  have plain : pauses (.inr (.restore payload)) = false := rfl
  obtain ⟨attends, same⟩ := h.regains plain regains
  refine ⟨fun _ _ => failed _ _ _ attends.toCalm, fun _ => ?_⟩
  refine restored true _ s₁ (attends.insert (known.of_history same)) ⟨regains.toGrows, ?_, ?_⟩
    (.inr ⟨payload, carried, dealings_of_own regains.own⟩)
  · exact locks_of_plain plain regains.own
  · exact fun tx locked => regains.history tx (held_eq_locks plain ▸ locked)

/-- What a recovery has found it has to itself, prepared, and part of it has been put back. -/
structure Restoring (p : ProcessId) (call : ℕ) (s : Scene (role p)) (found restored : List Record) :
    Prop where
  /-- It is what the scan has found. -/
  scanned : ∃ entries log, ⟨call, .answered (.inl (.scan p)) (.ok entries), log⟩ ∈ s.past ∧
    found.map Record.transaction = Log.transactions entries
  /-- The recovery has it to itself. -/
  locked : ∀ r ∈ found, r.transaction ∈ locks p s.past call .recover
  /-- It is prepared. -/
  prepared : ∀ r ∈ found, ∃ payload, Holding p s.log r payload
  /-- What has been put back has been given back to the resource manager. -/
  dealt : List.Forall₂ Reacquires restored (dealings p s.past call)

theorem Restoring.keeps {found restored restored' : List Record}
    (h : Restoring self call s found restored) (keeps : Keeps self call .recover s s')
    (dealt : List.Forall₂ Reacquires restored' (dealings self s'.past call)) :
    Restoring self call s' found restored' where
  scanned := by
    obtain ⟨entries, log, scanned, all⟩ := h.scanned
    exact ⟨entries, log, keeps.past.subset scanned, all⟩
  locked r hr := keeps.locks.ge (h.locked r hr)
  prepared r hr := by
    obtain ⟨payload, holding⟩ := h.prepared r hr
    have same := keeps.history r.transaction (h.locked r hr)
    exact ⟨payload, holding.sees.of_history same, holding.prepared, holding.payload⟩
  dealt := dealt

/-- All that a recovery has read is put back, before anybody else can change it. -/
theorem meets_restoreAll {found done records : List Record}
    {ok : PUnit → Memory → Scene (role self) → Prop}
    {err : RecoveryError → Memory → Scene (role self) → Prop}
    (h : (discipline self).Calm call .recover s memory)
    (restoring : Restoring self call s found done) (order : (done ++ records).Sublist found)
    (restored : ∀ memory' s', (discipline self).Calm call .recover s' memory' → s.Grows s' →
      ok ⟨⟩ memory' s')
    (failed : ∀ failure memory' s', (discipline self).Calm call .recover s' memory' →
      err failure memory' s') :
    (records.forM fun record => discard ((restore record).mapError .ofCommit) :
      RecoveryStep PUnit).Meets ((discipline self).contract call .recover) ok err memory s := by
  induction records generalizing done memory s with
  | nil => exact restored memory s h (.refl s)
  | cons r rest ih =>
    have listed : r ∈ found := order.subset (by simp)
    obtain ⟨payload, holding⟩ := restoring.prepared r listed
    obtain ⟨log₀, started⟩ := h.started
    obtain ⟨entries, log₁, scanned, all⟩ := restoring.scanned
    rw [List.forM_eq_forM, List.forM_cons, Action.meets_bind, Action.meets_discard,
      Action.meets_mapError]
    refine meets_restore { h with locked := restoring.locked r listed } holding.sees ?_ ?_
      fun failure => failed _
    · intro payload carried
      have next : (done ++ [r]).Sublist (done ++ r :: rest) :=
        (List.singleton_sublist.2 (.head _)).append_left done
      exact .restore started scanned all restoring.prepared (next.trans order) restoring.dealt
        carried
    · intro _ memory₁ s₁ calm keeps dealt
      have goesOn : ∀ memory' s', (discipline self).Calm call .recover s' memory' → s₁.Grows s' →
          ok ⟨⟩ memory' s' :=
        fun memory' s' calm grows => restored memory' s' calm (keeps.toGrows.trans grows)
      rcases dealt with same | ⟨payload, carried, added⟩
      · have rest' : (done ++ rest).Sublist (done ++ r :: rest) :=
          (List.sublist_cons_self r rest).append_left done
        exact ih calm (restoring.keeps keeps (same ▸ restoring.dealt)) (rest'.trans order) goesOn
      · refine ih calm (restoring.keeps keeps ?_) (List.append_cons done r rest ▸ order) goesOn
        rw [added]
        exact List.rel_append restoring.dealt (.cons ⟨rfl, carried⟩ .nil)

/-! ## Resolving -/

/-- The log names a coordinator that a record was prepared for. -/
def Prepared (p : ProcessId) (log : List Entry) (r : Record) : Prop :=
  ∃ coordinator, r.coordinator = some coordinator ∧
    ∃ e ∈ Log.history log p r.transaction, ∃ payload, e.payload = .prepared coordinator payload

theorem Prepared.mono {log log' : List Entry} {r : Record} (h : Prepared self log r)
    (grown : log <+: log') : Prepared self log' r := by
  obtain ⟨coordinator, named, e, he, rest⟩ := h
  exact ⟨coordinator, named, e, (Log.history_prefix grown _ _).subset he, rest⟩

/-- Who holds a payload has been asked to prepare it by a coordinator that the log names. -/
theorem Holding.named {log : List Entry} {r : Record} {payload : PreparedPayload}
    (h : Holding self log r payload) : Prepared self log r := by
  have history : Record.History r.transaction (Log.history log self r.transaction) r := h.sees
  obtain ⟨e, he, coordinator, payload, takes, named, -⟩ :=
    history.exists_prepared (history.vote_of_prepared h.prepared)
  exact ⟨coordinator, named, e, he, payload, takes.payload⟩

/-- What an unfinished history replays to is prepared. -/
theorem exists_holding {log : List Entry} {seen replayed : Option Record}
    (sees : Sees self log tx seen) (incomplete : Log.isIncomplete log self tx = true)
    (replay : Record.replay (Log.history log self tx) = .ok replayed) :
    ∃ r, replayed = some r ∧ r.transaction = tx ∧ ∃ payload, Holding self log r payload := by
  rw [sees.replay] at replay
  cases replay
  cases seen with
  | none =>
    have empty : Log.history log self tx = [] := sees
    simp [Log.isIncomplete, Log.lastState?, empty] at incomplete
  | some r =>
    have history : Record.History tx (Log.history log self tx) r := sees
    have prepared : r.state = .prepared := by
      simp only [Log.isIncomplete, Log.lastState?, history.last] at incomplete
      rcases history.prepared_or_resolved with prepared | ⟨d, resolved⟩
      · exact prepared
      · cases d <;> simp [resolved, ParticipantState.resolved, ParticipantState.toState,
          State.isTerminal] at incomplete
    obtain ⟨-, -, -, payload, -, -, carried⟩ :=
      history.exists_prepared (history.vote_of_prepared prepared)
    exact ⟨r, rfl, history.transaction, payload, sees.holding prepared carried⟩

/-- What a scan replays to are the transactions found, and they are prepared. -/
theorem found_of_scan {log : List Entry} {records : List Record}
    (sees : ∀ tx, ∃ found, Sees self log tx found)
    (h : replayAll (Log.scanIncomplete log self) = .ok records) :
    records.map Record.transaction = Log.transactions (Log.scanIncomplete log self) ∧
      ∀ r ∈ records, ∃ payload, Holding self log r payload := by
  rw [replayAll, Log.groupByTransaction_scan] at h
  cases all : ((Log.transactions (Log.scanIncomplete log self)).map (Log.history log self)).mapM
    Record.replay with
  | error failure => simp [all, bind, Except.bind] at h
  | ok found =>
    simp only [all, bind, Except.bind, pure, Except.pure, Except.ok.injEq] at h
    have incomplete : ∀ tx ∈ Log.transactions (Log.scanIncomplete log self),
        Log.isIncomplete log self tx = true := fun tx => Log.mem_transactions_scan_iff.1
    have replays := (List.forall₂_and_left _ _).2
      ⟨incomplete, List.forall₂_map_left_iff.1 (Log.forall₂_of_mapM all)⟩
    rw [← h]
    clear h all incomplete
    generalize Log.transactions (Log.scanIncomplete log self) = txs at replays ⊢
    induction replays with
    | nil => exact ⟨rfl, nofun⟩
    | @cons tx replayed txs found head _ ih =>
      obtain ⟨seen, known⟩ := sees tx
      obtain ⟨r, rfl, rfl, holding⟩ := exists_holding known head.1 head.2
      exact ⟨congrArg (r.transaction :: ·) ih.1, List.forall_mem_cons.2 ⟨holding, ih.2⟩⟩

/-- A recovery asks the coordinator that the log names, and applies what it is told. -/
theorem meets_resolve {r : Record} {report : RecoveryReport}
    {ok : RecoveryReport → Memory → Scene (role self) → Prop}
    {err : RecoveryError → Memory → Scene (role self) → Prop}
    (h : (discipline self).Calm call .recover s memory) (prepared : Prepared self s.log r)
    (resolved : ∀ report memory' s', (discipline self).Calm call .recover s' memory' → s.Grows s' →
      ok report memory' s')
    (failed : ∀ failure memory' s', (discipline self).Calm call .recover s' memory' →
      err failure memory' s') :
    (resolve self report r).Meets ((discipline self).contract call .recover) ok err memory s := by
  obtain ⟨coordinator, named, asks⟩ := prepared
  refine meets_resolve_of (by simp [named]) fun coordinator' named' => ?_
  obtain rfl : coordinator = coordinator' := Option.some.inj (named.symm.trans named')
  refine h.meets_ask discipline_lawful rfl ⟨h.started, asks⟩ ?_
  intro answer memory₁ s₁ regains
  refine ⟨?_, fun _ => resolved _ memory₁ s₁ regains.toCalm regains.toGrows⟩
  rintro d rfl
  have attends : Attends self call .recover s₁ memory₁ r.transaction := by
    refine { regains.toCalm with locked := ?_ }
    simp [locks, regains.own, recoveryLocks]
  have told : Told self s₁.past call r.transaction d := .inr ⟨coordinator, _, regains.noted⟩
  have mandated : mandate self s₁.past call .recover = some (r.transaction, d) := by
    simp [mandate, regains.own, mandateAfter]
  refine meets_handleDecision attends told mandated ?_ ?_
  · intro memory₂ s₂ calm₂ grows₂ _
    exact resolved _ memory₂ s₂ calm₂ (regains.toGrows.trans grows₂)
  · intro failure memory₂ s₂ calm₂ grows₂
    refine ⟨fun cause _ => failed _ memory₂ s₂ calm₂, fun _ => ?_⟩
    exact resolved _ memory₂ s₂ calm₂ (regains.toGrows.trans grows₂)

theorem meets_resolveAll {records : List Record} {report : RecoveryReport}
    {ok : RecoveryReport → Memory → Scene (role self) → Prop}
    {err : RecoveryError → Memory → Scene (role self) → Prop}
    (h : (discipline self).Calm call .recover s memory)
    (prepared : ∀ r ∈ records, Prepared self s.log r)
    (resolved : ∀ report memory' s', (discipline self).Calm call .recover s' memory' →
      ok report memory' s')
    (failed : ∀ failure memory' s', (discipline self).Calm call .recover s' memory' →
      err failure memory' s') :
    (records.foldlM (resolve self) report).Meets ((discipline self).contract call .recover) ok err
      memory s := by
  -- whatever is resolved, the others stay prepared
  refine (Action.Meets.foldlM (P := fun memory s => (discipline self).Calm call .recover s memory ∧
    ∀ r ∈ records, Prepared self s.log r) (fun r listed report memory s holds => ?_)
    ⟨h, prepared⟩).imp_ok fun report memory s holds => resolved report memory s holds.1
  refine meets_resolve holds.1 (holds.2 r listed) ?_ failed
  exact fun _ _ _ calm grows => ⟨calm, fun r' there => (holds.2 r' there).mono grows.log⟩

theorem meets_recover {ok : RecoveryReport → Memory → Scene (role self) → Prop}
    {err : RecoveryError → Memory → Scene (role self) → Prop}
    (h : (discipline self).Calm call .recover s memory) (first : dealings self s.past call = [])
    (recovered : ∀ report memory' s', (discipline self).Calm call .recover s' memory' →
      ok report memory' s')
    (failed : ∀ failure memory' s', (discipline self).Calm call .recover s' memory' →
      err failure memory' s') :
    (recover self).Meets ((discipline self).contract call .recover) ok err memory s := by
  refine meets_recover_of (Host.meets_scan.2 ⟨h.asks trivial rfl, ?_⟩)
  intro scanned memory₁ s₁ answers
  have regains := h.regains discipline_lawful answers fun _ _ host => host.1
  have own := regains.own
  refine ⟨?_, fun failure _ => failed _ _ _ regains.toCalm⟩
  rintro entries rfl
  obtain rfl : entries = Log.scanIncomplete s₁.log self := regains.host.2 entries rfl
  refine ⟨fun failure _ => failed _ _ _ regains.toCalm, fun records replayed => ?_⟩
  obtain ⟨all, prepared⟩ := found_of_scan (fun tx => Kept.sees (regains.kept tx)) replayed
  have restoring : Restoring self call s₁ records [] := by
    refine ⟨⟨_, s₁.log, regains.noted, all⟩, fun r hr => ?_, prepared, ?_⟩
    · have listed : r.transaction ∈ Log.transactions (Log.scanIncomplete s₁.log self) :=
        all ▸ List.mem_map_of_mem hr
      simpa [locks, own, recoveryLocks] using listed
    · rw [dealings_of_own own, first]
      exact .nil
  refine meets_restoreAll regains.toCalm restoring (List.Sublist.refl _) ?_ failed
  intro memory₂ s₂ calm₂ grows₂
  refine meets_resolveAll calm₂ ?_ recovered failed
  intro r hr
  obtain ⟨payload, holding⟩ := prepared r hr
  exact holding.named.mono grows₂.log

/-! ## All operations -/

/-- Every operation keeps to the discipline, whatever it is answered. -/
theorem obeyed : (discipline self).Obeyed := by
  intro s call op sound new _
  have calm : (discipline self).Calm call op (s.note call (.started op)) s.memory :=
    Discipline.calm_start discipline_lawful sound
  have started : ⟨call, .started op, s.log⟩ ∈ (s.note call (.started op)).past :=
    List.mem_append_right _ (.head _)
  have first : dealings self (s.note call (.started op)).past call = [] := by
    rw [dealings, momentsOf_note, momentsOf_others new]
    rfl
  cases op with
  | handlePrepare message =>
    refine Action.Meets.program (meets_handlePrepare { calm with locked := rfl } first ?_ ?_)
    · exact fun vote r _ _ calm sees voted settles => ⟨calm.toLeaves, ⟨r, sees, voted⟩, settles⟩
    · exact fun _ _ _ calm settles => ⟨calm.toLeaves, trivial, settles⟩
  | handleDecision tx d =>
    refine Action.Meets.program (meets_handleDecision { calm with locked := rfl } ?_ rfl ?_ ?_)
    · exact .inl ⟨s.log, started⟩
    · exact fun _ _ calm _ applied => ⟨calm.toLeaves, applied, trivial⟩
    · exact fun _ _ _ calm _ => ⟨calm.toLeaves, trivial, trivial⟩
  | queryVote tx =>
    show ((queryVote self tx).program s.memory).Meets _ _ _
    refine Action.Meets.program ?_
    rw [queryVote, Action.meets_bind]
    refine meets_record? calm ?_ ?_
    · exact fun found _ _ calm _ _ sees => ⟨calm.toLeaves, ⟨found, sees, rfl⟩, trivial⟩
    · exact fun _ _ _ calm _ _ => ⟨calm.toLeaves, trivial, trivial⟩
  | queryState tx =>
    show ((state? self tx).program s.memory).Meets _ _ _
    refine Action.Meets.program ?_
    rw [state?, Action.meets_bind]
    refine meets_record? calm ?_ ?_
    · exact fun found _ _ calm _ _ sees => ⟨calm.toLeaves, ⟨found, sees, rfl⟩, trivial⟩
    · exact fun _ _ _ calm _ _ => ⟨calm.toLeaves, trivial, trivial⟩
  | queryRecord tx =>
    refine Action.Meets.program (meets_record? calm ?_ ?_)
    · exact fun found _ _ calm _ _ sees => ⟨calm.toLeaves, sees, trivial⟩
    · exact fun _ _ _ calm _ _ => ⟨calm.toLeaves, trivial, trivial⟩
  | forget tx =>
    refine Action.Meets.program (meets_forget { calm with locked := rfl } ?_ ?_)
    · exact fun _ _ calm => ⟨calm.toLeaves, trivial, trivial⟩
    · exact fun _ => ⟨calm.toLeaves, trivial, trivial⟩
  | recover =>
    refine Action.Meets.program (meets_recover calm first ?_ ?_)
    · exact fun _ _ _ calm => ⟨calm.toLeaves, trivial, trivial⟩
    · exact fun _ _ _ calm => ⟨calm.toLeaves, trivial, trivial⟩

end AtomicCommit.Participant

import AtomicCommit.Proofs.Participant.Rules
import AtomicCommit.Proofs.Participant.Run
import Mathlib.Logic.Relation

/-!
# What a participant keeps in memory

Until a participant restarts it keeps in memory whatever is prepared and has come there, and
whatever it prepares itself. An operation holds on to all that is in memory when it is answered and
to what it has just stored; only what is resolved is ever dropped.

## Main definitions

* `Participant.clinging`: the contract of a call that drops nothing.
* `Participant.Clings`: an action that drops nothing.
* `Participant.Lives`: a run without a restart.

## Main results

* `Participant.Lives.keeps`: what is prepared stays in memory.
-/

namespace AtomicCommit.Participant

/-- Some transactions are in memory. -/
def Has (memory : Memory) (held : Set TransactionId) : Prop :=
  ∀ tx ∈ held, memory.contains tx = true

/-- The contract of a call that drops nothing: when it rests it has all that was in memory when it
was last answered, and what it had stored then. -/
def clinging (p : ProcessId) : Contract (interface.sharing Memory) (Set TransactionId) where
  asks held q := Has q.2 held
  answers _ q a held := ∃ log log', (role p).Answers log q.1 a.1 log' ∧
    held = {tx | a.2.contains tx = true ∨ Log.history log' p tx ≠ Log.history log p tx}

variable {ε δ α β : Type}

/-- An action that drops nothing. -/
def Clings (p : ProcessId) (action : Action interface Memory ε α) : Prop :=
  ∀ memory held, Has memory held → action.Meets (clinging p) (fun _ memory held => Has memory held)
    (fun _ memory held => Has memory held) memory held

variable {self : ProcessId}

theorem Has.insert {memory : Memory} {held : Set TransactionId} (has : Has memory held)
    (r : Record) : Has (memory.insert r.transaction r) held := by
  intro tx listed
  simp [SortedMap.contains_insert, has tx listed]

/-- What a call has when it is answered is all that it has to hold on to, unless it has stored
something. -/
theorem Has.of_answers {q : (role self).Request} {a : (role self).Answer q}
    {memory memory' : Memory} {held held' : Set TransactionId}
    (stores : (role self).stores q = false)
    (answers : (clinging self).answers held (q, memory) (a, memory') held') :
    Has memory' held' := by
  obtain ⟨log, log', answers, rfl⟩ := answers
  intro tx listed
  have same : log' = log := by
    rcases Role.answers_log answers with same | ⟨e, append, -⟩
    · exact same
    · exact absurd append (Role.ne_append_of_stores stores e)
  simpa [same] using listed

/-! ## Ways to build an action -/

namespace Clings

theorem pure (a : α) : Clings self (Pure.pure a : Action interface Memory ε α) :=
  fun _ _ has => has

theorem bind {action : Action interface Memory ε α} {next : α → Action interface Memory ε β}
    (h : Clings self action) (goesOn : ∀ a, Clings self (next a)) :
    Clings self (action >>= next) := by
  intro memory held has
  rw [Action.meets_bind]
  exact (h memory held has).imp_ok fun a memory held => goesOn a memory held

theorem mapError {action : Action interface Memory δ α} {wrap : δ → ε} (h : Clings self action) :
    Clings self (action.mapError wrap) := by
  intro memory held has
  rw [Action.meets_mapError]
  exact h memory held has

theorem discard {action : Action interface Memory ε α} (h : Clings self action) :
    Clings self (Functor.discard action) := by
  intro memory held has
  rw [Action.meets_discard]
  exact h memory held has

/-- A question that stores nothing. -/
theorem ask {q : interface.Request} (stores : (role self).stores q = false) :
    Clings self (Action.ask q : Action interface Memory ε _) := by
  intro memory held has
  rw [Action.meets_ask]
  exact ⟨has, fun _ _ _ answers => Has.of_answers stores answers⟩

theorem forM {records : List α} {action : α → Action interface Memory ε PUnit}
    (h : ∀ r, Clings self (action r)) : Clings self (records.forM action) :=
  fun _ _ => .forM fun r _ => h r

theorem foldlM {records : List α} {action : β → α → Action interface Memory ε β}
    (h : ∀ b r, Clings self (action b r)) (b : β) : Clings self (records.foldlM action b) :=
  fun _ _ => .foldlM fun r _ b => h b r

end Clings

/-! ## The operations -/

variable (self)

theorem clings_record? (tx : TransactionId) : Clings self (record? self tx) := by
  intro memory held has
  refine meets_record?_of (fun _ _ => has) fun _ => ?_
  rw [Host.meets_load]
  refine ⟨has, ?_⟩
  intro a memory' held' answers
  have has' : Has memory' held' := Has.of_answers rfl answers
  exact ⟨fun _ _ => ⟨fun _ _ => has', fun _ _ => has'⟩, fun _ _ => has'⟩

/-- What has been stored is put into memory before the call rests again. -/
theorem clings_advance {r : Record} {next : ParticipantState} {payload : Payload}
    (applies : ∀ e : Entry, e.Takes r.transaction r.state next payload →
      ∃ r', r.apply e = .ok r' ∧ r'.transaction = r.transaction) :
    Clings self (advance self r next payload) := by
  intro memory held has
  refine meets_advance_of ((Clings.ask rfl memory held has).imp_ok ?_)
  intro now memory held has e _ takes
  obtain ⟨r', apply, same⟩ := applies e takes
  rw [Host.meets_append, apply]
  refine ⟨has, ?_⟩
  rintro a memory' held' ⟨log, log', answers, rfl⟩
  constructor
  · rintro ⟨⟩ rfl
    obtain rfl : log' = log ++ [e] := answers
    refine ⟨?_, by simp⟩
    rintro _ ⟨⟩ tx listed
    rw [SortedMap.contains_insert]
    by_cases about : tx = r'.transaction
    · simp [about]
    · have other : Log.history (log ++ [e]) self tx = Log.history log self tx :=
        Log.history_append_other log fun _ this =>
          about (this.symm.trans (takes.transaction.trans same.symm))
      have there : memory'.contains tx = true := by simpa [other] using listed
      simp [there]
  · rintro failure rfl
    obtain rfl : log' = log := answers
    intro tx listed
    simpa using listed

theorem clings_tryPrepare (operations : List AtomicCommit.Operation) :
    Clings self (tryPrepare operations) := by
  intro memory held has
  refine meets_tryPrepare_of ((Clings.ask rfl memory held has).imp_ok ?_)
  exact fun _ memory held has => ⟨fun _ => has, fun _ => Clings.ask rfl memory held has⟩

theorem clings_handlePrepare (message : PrepareMessage) :
    Clings self (handlePrepare self message) := by
  intro memory held has
  refine meets_handlePrepare_of ((clings_record? self _ memory held has).imp_ok ?_)
  intro found memory held has
  refine ⟨fun _ _ => has, fun _ => (clings_tryPrepare self _ memory held has).imp_ok ?_⟩
  intro prepared memory held has
  constructor
  · intro payload _
    refine (clings_advance self (fun e takes => ?_) memory held has).mono (fun _ _ _ has => has) ?_
    · exact ⟨_, Record.apply_of_takes takes rfl, rfl⟩
    · exact fun _ memory held has => Clings.ask rfl memory held has
  · intro _
    refine clings_advance self (fun e takes => ?_) memory held has
    exact ⟨_, Record.apply_of_takes takes rfl, rfl⟩

theorem clings_handleDecision (tx : TransactionId) (d : Decision) :
    Clings self (handleDecision self tx d) := by
  intro memory held has
  refine meets_handleDecision_of ((clings_record? self tx memory held has).imp_ok ?_)
  intro found memory held has
  constructor
  case aborts =>
    intro _ _
    refine clings_advance self (fun e takes => ?_) memory held has
    exact ⟨_, Record.apply_of_takes takes rfl, rfl⟩
  case ignores => exact fun _ _ => has
  case repeats => exact fun _ _ _ => has
  case refuses => exact fun _ _ _ _ => has
  case misses => exact fun _ _ _ _ => has
  case carries =>
    intro r payload _ prepared _
    have stores : Clings self (advance self r (.resolved d) (.resolved d)) := by
      refine clings_advance self fun e takes => ⟨{ r with state := .resolved d }, ?_, rfl⟩
      rw [Record.apply_of_takes takes (by rw [prepared]; cases d <;> rfl)]
      simp [Record.step]
    have carries : Clings self (carryOut payload d) := by cases d <;> exact .ask rfl
    refine (carries memory held has).imp_ok ?_
    exact fun _ memory held has => ⟨fun _ _ => has, fun _ => stores memory held has⟩

theorem clings_restore (r : Record) : Clings self (restore r) := by
  intro memory held has
  refine meets_restore_of (fun _ => has) ?_ fun _ _ => has.insert r
  intro _ payload _ _
  refine (Clings.ask rfl memory held has).imp_ok ?_
  exact fun _ memory held has => ⟨fun _ _ => has, fun _ => has.insert r⟩

theorem clings_resolve (report : RecoveryReport) (r : Record) :
    Clings self (resolve self report r) := by
  intro memory held has
  refine meets_resolve_of (fun _ _ => has) fun coordinator _ => ?_
  refine (Clings.ask rfl memory held has).imp_ok ?_
  intro answer memory held has
  refine ⟨fun d _ => ?_, fun _ => has⟩
  exact (clings_handleDecision self r.transaction d memory held has).mono (fun _ _ _ has => has)
    fun _ _ _ has => ⟨fun _ _ => has, fun _ => has⟩

theorem clings_recover : Clings self (recover self) := by
  intro memory held has
  refine meets_recover_of ?_
  rw [Host.meets_scan]
  refine ⟨has, ?_⟩
  intro a memory' held' answers
  have has' : Has memory' held' := Has.of_answers rfl answers
  refine ⟨fun entries _ => ⟨fun _ _ => has', fun records _ => ?_⟩, fun _ _ => has'⟩
  have restores : Clings self (records.forM fun record =>
      discard ((restore record).mapError .ofCommit) : RecoveryStep PUnit) :=
    .forM fun r => (clings_restore self r).mapError.discard
  exact (restores memory' held' has').imp_ok fun _ => Clings.foldlM (clings_resolve self) _

variable {self} {n n' : Node (role self)} {tx : TransactionId} {memory : Memory}
  {held : Set TransactionId}

/-- Only what is resolved is dropped. -/
theorem meets_forget_clinging (has : Has memory held)
    (resolved : ∀ r, memory.get? tx = some r → r.state.isTerminal = true → tx ∉ held) :
    (forget self tx).Meets (clinging self) (fun _ memory held => Has memory held)
      (fun _ memory held => Has memory held) memory held := by
  refine meets_forget_of (fun _ => has) (fun r cached terminal tx' listed => ?_) fun _ => has
  have ne : tx' ≠ tx := fun same => resolved r cached terminal (same ▸ listed)
  rw [SortedMap.contains, SortedMap.get?_erase, if_neg ne]
  exact has tx' listed

/-- Every operation holds on to what is in memory and not resolved. -/
theorem clings_run (op : Operation) (has : Has memory held)
    (unresolved : ∀ tx ∈ held, ∀ r, memory.get? tx = some r → r.state.isTerminal = false) :
    (run self op memory).Meets (clinging self) (fun outcome held => Has outcome.2 held) held := by
  cases op with
  | handlePrepare message => exact (clings_handlePrepare self message memory held has).program
  | handleDecision tx d => exact (clings_handleDecision self tx d memory held has).program
  | queryVote tx =>
    have h : Clings self (queryVote self tx) := (clings_record? self tx).bind fun _ => .pure _
    exact (h memory held has).program
  | queryState tx =>
    have h : Clings self (state? self tx) := (clings_record? self tx).bind fun _ => .pure _
    exact (h memory held has).program
  | queryRecord tx => exact (clings_record? self tx memory held has).program
  | forget tx =>
    refine (meets_forget_clinging has fun r cached terminal listed => ?_).program
    simp [unresolved tx listed r cached] at terminal
  | recover => exact (clings_recover self memory held has).program

/-! ## Steps and runs -/

/-- A call that rests drops nothing when it goes on. -/
def Minds (p : ProcessId) (t : Thread (role p)) : Prop :=
  ∀ a log log', (role p).Answers log t.question a.1 log' →
    (t.next a).Meets (clinging p) (fun outcome held => Has outcome.2 held)
      {tx | a.2.contains tx = true ∨ Log.history log' p tx ≠ Log.history log p tx}

/-- What a call that drops nothing leaves behind when it rests or ends. -/
theorem has_settle {s : Scene (role self)} {threads : ℕ → Option (Thread (role self))} {call : ℕ}
    {op : Operation} {p : (role self).Run op}
    (meets : p.Meets (clinging self) (fun outcome held => Has outcome.2 held) held)
    (minds : ∀ other t, threads other = some t → Minds self t) :
    Has (Node.settle s threads call op p).memory held ∧
      ∀ other t, (Node.settle s threads call op p).threads other = some t → Minds self t := by
  constructor
  · cases p with
    | done outcome => exact meets
    | ask q next => exact meets.1
  · intro other t rests
    rcases Node.cases_of_rests_settle rests with ⟨-, earlier⟩ | ⟨-, q, next, rfl, rfl⟩
    · exact minds other t earlier
    · exact fun a log log' answers => meets.2 a _ ⟨log, log', answers, rfl⟩

/-- What is in memory is what the log says. -/
theorem Kept.lastState? {log : List Entry} {copy : Option Record} {r : Record}
    (h : Kept tx (Log.history log self tx) copy) (cached : copy = some r) :
    Log.lastState? log self tx = some r.state.toState :=
  Sees.lastState? (h.history cached)

/-- What a step hands on. -/
structure Passes (p : ProcessId) (n n' : Node (role p)) : Prop where
  /-- Resting calls drop nothing. -/
  minds : ∀ call t, n'.threads call = some t → Minds p t
  /-- Unless there is a restart, what is prepared is in memory, if it was there or nothing was known
  of it. -/
  keeps : n' ≠ { log := n.log, past := n.past } → ∀ tx,
    Log.lastState? n'.log p tx = some .prepared →
    Log.history n.log p tx = [] ∨ n.memory.contains tx = true → n'.memory.contains tx = true

theorem passes_step {allows : Operation → Moment (role self) → Prop}
    (holds : (discipline self).Holds n) (minds : ∀ call t, n.threads call = some t → Minds self t)
    (step : n.Step allows n') : Passes self n n' := by
  have unknown : ∀ {log tx}, Log.lastState? log self tx = some .prepared →
      Log.history log self tx ≠ [] := by
    intro log tx prepared empty
    simp [Log.lastState?, empty] at prepared
  cases step with
  | @start call op new allowed =>
    -- what is in memory and prepared is what the call has to hold on to
    have unresolved : ∀ tx, Log.lastState? n.log self tx = some .prepared →
        ∀ r, n.memory.get? tx = some r → r.state.isTerminal = false := by
      intro tx prepared r cached
      have last := Kept.lastState? (holds.kept tx) cached
      rw [prepared, Option.some.injEq] at last
      rw [← ParticipantState.toState_injective (a := .prepared) last]
      rfl
    have meets : (run self op n.memory).Meets (clinging self)
        (fun outcome held => Has outcome.2 held)
        {tx | n.memory.contains tx = true ∧ Log.lastState? n.log self tx = some .prepared} :=
      clings_run op (fun tx listed => listed.1) fun tx listed => unresolved tx listed.2
    obtain ⟨has, minds'⟩ := has_settle meets minds
    refine ⟨minds', fun _ tx prepared known => has tx ?_⟩
    rw [Node.settle_log] at prepared
    exact ⟨known.resolve_left (unknown prepared), prepared⟩
  | @answer call t a log rests answers allowed =>
    obtain ⟨has, minds'⟩ := has_settle (minds call t rests (a, n.memory) n.log log answers) minds
    refine ⟨minds', fun _ tx prepared known => has tx ?_⟩
    rw [Node.settle_log] at prepared
    rcases known with empty | there
    · exact .inr (empty ▸ unknown prepared)
    · exact .inl there
  | restart => exact ⟨by simp, fun again => absurd rfl again⟩
  | @share e other =>
    refine ⟨minds, fun _ tx prepared known => known.resolve_left fun empty => unknown prepared ?_⟩
    exact (Log.history_append_other n.log fun own => absurd own other).trans empty

theorem Reachable.minds (h : Reachable self n) :
    ∀ call t, n.threads call = some t → Minds self t := by
  induction h with
  | initial => simp
  | step before step ih => exact (passes_step before.holds ih step).minds

/-- Something happens, and it is not a restart. -/
def Continues (p : ProcessId) (n n' : Node (role p)) : Prop :=
  n.Step (Allows p n) n' ∧ n' ≠ { log := n.log, past := n.past }

/-- A run without a restart. -/
abbrev Lives (p : ProcessId) : Node (role p) → Node (role p) → Prop :=
  Relation.ReflTransGen (Continues p)

theorem Reachable.lives (h : Reachable self n) (lives : Lives self n n') : Reachable self n' := by
  induction lives with
  | refl => exact h
  | tail _ continues ih => exact ih.step continues.1

theorem Lives.grows (lives : Lives self n n') : n.log <+: n'.log := by
  induction lives with
  | refl => exact List.prefix_rfl
  | tail _ continues ih => exact ih.trans continues.1.grows.log

/-- What is prepared and was known before was prepared before. -/
theorem prepared_of_prefix {log : List Entry} (holds : (discipline self).Holds n)
    (grown : log <+: n.log) (known : Log.history log self tx ≠ [])
    (prepared : Log.lastState? n.log self tx = some .prepared) :
    Log.lastState? log self tx = some .prepared := by
  have sub := Log.history_prefix grown self tx
  cases holds.kept tx with
  | unknown empty _ => exact absurd (List.prefix_nil.1 (empty ▸ sub)) known
  | @known r history _ =>
    have state : r.state = .prepared := by
      rw [Log.lastState?, history.last, Option.some.injEq] at prepared
      exact ParticipantState.toState_injective prepared
    obtain ⟨e, coordinator, payload, only, takes, -⟩ := history.singleton_of_prepared state
    obtain ⟨later, whole⟩ := sub
    rw [show Log.history n.log self tx = [e] from only] at whole
    have same : Log.history log self tx = [e] := by
      cases first : Log.history log self tx with
      | nil => exact absurd first known
      | cons e' rest =>
        rw [first, List.cons_append, List.cons_eq_cons, List.append_eq_nil_iff] at whole
        rw [whole.1, whole.2.1]
    simp [Log.lastState?, same, takes.state, ParticipantState.toState]

/-- What is prepared is in memory, if it was there, or nothing was known of it, at any time since
the last restart. -/
theorem Lives.keeps (h : Reachable self n) (lives : Lives self n n')
    (prepared : Log.lastState? n'.log self tx = some .prepared)
    (known : Log.history n.log self tx = [] ∨ n.memory.contains tx = true) :
    n'.memory.contains tx = true := by
  induction lives with
  | refl =>
    refine known.resolve_left fun empty => ?_
    simp [Log.lastState?, empty] at prepared
  | @tail n₁ n' lives continues ih =>
    have reachable := h.lives lives
    have passes := passes_step reachable.holds reachable.minds continues.1
    refine passes.keeps continues.2 tx prepared ?_
    by_cases empty : Log.history n₁.log self tx = []
    · exact .inl empty
    · refine .inr (ih ?_)
      have holds := (reachable.step continues.1).holds
      exact prepared_of_prefix holds continues.1.grows.log empty prepared

end AtomicCommit.Participant

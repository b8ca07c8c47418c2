import AtomicCommit.Proofs.Log.Scan
import AtomicCommit.Proofs.Participant.Conduct
import AtomicCommit.Proofs.Participant.Rules
import AtomicCommit.Proofs.Transaction.Finishable

/-!
# What a call puts into memory

A call that is started or answered finds a memory. If all in it can be finished, so can all that the
call leaves there when it rests again or ends, and what it leaves prepared was there before or has
been obtained by the very event: the resource manager has taken hold of it, or the entry by which it
was prepared has been stored. So no decision meets a prepared record without a payload and no
recovery one without a coordinator.

Nothing is presupposed of the log, nor of who else uses the memory meanwhile, except that they leave
what can be finished.

## Main definitions

* `Participant.Obtains`: an event after which a participant has what a record holds.
* `Participant.acquiring`, `Participant.Completes`: the contract, and an action that keeps to it.
* `Participant.HasPayload`, `Participant.HasCoordinator`: failures of another kind.

## Main results

* `Participant.completes_handleDecision`, `Participant.completes_recover`: a decision and a recovery
  keep to the contract.
* `Participant.completes_run`: so does every operation.
-/

namespace AtomicCommit.Participant

variable {self : ProcessId} {memory : Memory} {tx : TransactionId} {r : Record}

theorem misfit_of_replayAll {entries : List Entry} {failure : StateError}
    (h : replayAll entries = .error failure) : Record.Misfit failure := by
  unfold replayAll at h
  cases all : (Log.groupByTransaction entries).mapM Record.replay with
  | error failure' =>
    simp only [all, bind, Except.bind, Except.error.injEq] at h
    obtain ⟨es, -, failed⟩ := Log.exists_of_mapM_error all
    exact Record.misfit_of_replay (h ▸ failed)
  | ok found => simp [all, bind, Except.bind, pure, Except.pure] at h

/-- What a scan of any log replays to is prepared and can be finished: what is unfinished is not
resolved, and what is replayed is not idle. -/
theorem prepared_of_scan {log : List Entry} {records : List Record}
    (h : replayAll (Log.scanIncomplete log self) = .ok records) (listed : r ∈ records) :
    r.state = .prepared ∧ r.Finishable := by
  rw [replayAll, Log.groupByTransaction_scan] at h
  cases all : ((Log.transactions (Log.scanIncomplete log self)).map (Log.history log self)).mapM
    Record.replay with
  | error failure => simp [all, bind, Except.bind] at h
  | ok found =>
    simp only [all, bind, Except.bind, pure, Except.pure, Except.ok.injEq] at h
    have there : some r ∈ found := by simpa [← h] using listed
    obtain ⟨es, es_mem, replayed⟩ := Log.exists_of_forall₂ (Log.forall₂_of_mapM all) there
    obtain ⟨tx, tx_mem, rfl⟩ := List.mem_map.1 es_mem
    rw [Log.transactions_scanIncomplete] at tx_mem
    obtain ⟨_, ⟨⟩, unresolved⟩ := (Log.mem_unfinished_iff_of_record replayed).1 tx_mem
    have finishable := Record.finishable_of_replay replayed
    refine ⟨?_, finishable⟩
    cases state : r.state with
    | prepared => rfl
    | idle => exact absurd state finishable.begun
    | _ => simp [state, ParticipantState.isTerminal] at unresolved

/-! ## What a call finds and leaves -/

/-- All that is in memory can be finished. -/
def Equipped (memory : Memory) : Prop :=
  ∀ tx r, memory.get? tx = some r → r.Finishable

/-- An event after which a participant has what a record holds: the resource manager has taken hold
of it again, or has prepared it and the log says so. -/
inductive Obtains (p : ProcessId) (r : Record) : Event (role p) → Prop where
  /-- It has been taken hold of. -/
  | restored {payload : PreparedPayload} (held : r.payload = some payload) :
      Obtains p r (.answered (.inr (.restore payload)) (.ok () : Except Fault Unit))
  /-- The entry by which it has prepared has been stored. -/
  | prepared {e : Entry} {coordinator : ProcessId} {payload : PreparedPayload}
      (about : e.transaction = r.transaction) (carries : e.payload = .prepared coordinator payload)
      (held : r.payload = some payload) :
      Obtains p r (.answered (.inl (.append e)) (.ok () : Except LogError Unit))

/-- How a call comes to go on: by which event, and with which memory. -/
structure Cause (p : ProcessId) where
  /-- It is started or answered. -/
  event : Event (role p)
  /-- What is in memory then. -/
  memory : Memory

/-- What a call has in memory after it has gone on can be finished, and what is prepared was there
before or has just been obtained. -/
structure Cause.Leaves {p : ProcessId} (w : Cause p) (memory : Memory) : Prop where
  /-- All can be finished. -/
  equipped : Equipped memory
  /-- What is prepared was there, or has been obtained. -/
  obtained : ∀ tx r, memory.get? tx = some r → r.state = .prepared →
    w.memory.get? tx = some r ∨ Obtains p r w.event

/-- The contract of a call that puts nothing into memory that can not be finished, and nothing
prepared that it has not obtained. -/
def acquiring (p : ProcessId) : Contract (interface.sharing Memory) (Cause p) where
  asks w q := w.Leaves q.2
  answers _ q a w := (∃ log log', (role p).Answers log q.1 a.1 log') ∧ Equipped a.2 ∧
    w = ⟨.answered q.1 a.1, a.2⟩

variable {ε α : Type} {w : Cause self}

/-- An action keeps to the contract, and its results and failures are as promised. -/
def Completes (p : ProcessId) (action : Action interface Memory ε α) (ok : α → Prop)
    (err : ε → Prop) : Prop :=
  ∀ memory (w : Cause p), w.Leaves memory → action.Meets (acquiring p)
    (fun a memory w => w.Leaves memory ∧ ok a)
    (fun failure memory w => w.Leaves memory ∧ err failure) memory w

/-- What is promised of an action is promised of its program. -/
theorem Completes.program {action : Action interface Memory ε α} {err : ε → Prop}
    (h : Completes self action (fun _ => True) err) (leaves : w.Leaves memory)
    {post : Except ε α → Prop} (done : ∀ a, post (.ok a)) (failed : ∀ e, err e → post (.error e)) :
    (action.program memory).Meets (acquiring self)
      (fun outcome w => w.Leaves outcome.2 ∧ post outcome.1) w := by
  refine Action.Meets.program ((h memory w leaves).mono ?_ ?_)
  · exact fun a _ _ ⟨left, _⟩ => ⟨left, done a⟩
  · exact fun e _ _ ⟨left, promised⟩ => ⟨left, failed e promised⟩

theorem Equipped.leaves (equipped : Equipped memory) (event : Event (role self)) :
    (⟨event, memory⟩ : Cause self).Leaves memory :=
  ⟨equipped, fun _ _ there _ => .inl there⟩

namespace Cause.Leaves

/-- A record may be put into memory that can be finished, and has been obtained if it is
prepared. -/
theorem insert (h : w.Leaves memory) (finishable : r.Finishable)
    (obtained : r.state = .prepared → Obtains self r w.event) :
    w.Leaves (memory.insert r.transaction r) := by
  constructor
  · intro tx r' there
    rw [SortedMap.get?_insert] at there
    split at there
    · exact Option.some.inj there ▸ finishable
    · exact h.equipped tx r' there
  · intro tx r' there prepared
    rw [SortedMap.get?_insert] at there
    split at there
    · obtain rfl := Option.some.inj there
      exact .inr (obtained prepared)
    · exact h.obtained tx r' there prepared

theorem erase (h : w.Leaves memory) (tx : TransactionId) : w.Leaves (memory.erase tx) := by
  have there : ∀ tx' r, (memory.erase tx).get? tx' = some r → memory.get? tx' = some r := by
    intro tx' r there
    rw [SortedMap.get?_erase] at there
    split at there
    · cases there
    · exact there
  exact ⟨fun tx' r kept => h.equipped tx' r (there tx' r kept),
    fun tx' r kept => h.obtained tx' r (there tx' r kept)⟩

end Cause.Leaves

/-! ## The actions -/

/-- A failure that is not for want of a payload. -/
def HasPayload (failure : CommitError) : Prop :=
  ∀ tx, failure ≠ .invalidState (.missingPayload tx)

theorem hasPayload_of_misfit {failure : StateError} (h : Record.Misfit failure) :
    HasPayload (.invalidState failure) := by
  cases h <;> simp [HasPayload]

variable (self)

/-- A question. -/
theorem completes_ask {q : interface.Request} {err : ε → Prop} :
    Completes self (Action.ask q : Action interface Memory ε _) (fun _ => True) err := by
  intro memory w leaves
  rw [Action.meets_ask]
  refine ⟨leaves, ?_⟩
  rintro a memory' _ ⟨-, equipped, rfl⟩
  exact ⟨equipped.leaves _, trivial⟩

/-- What is looked up can be finished, wherever it is found. -/
theorem completes_record? (tx : TransactionId) :
    Completes self (record? self tx) (fun found => ∀ r, found = some r → r.Finishable)
      HasPayload := by
  intro memory w leaves
  refine meets_record?_of ?_ fun _ => ?_
  · rintro r cached
    exact ⟨leaves, fun _ found => Option.some.inj found ▸ leaves.equipped tx r cached⟩
  · rw [Host.meets_load]
    refine ⟨leaves, ?_⟩
    rintro a memory' _ ⟨-, equipped, rfl⟩
    have leaves' := equipped.leaves (.answered (.inl (.load tx)) a : Event (role self))
    refine ⟨fun entries _ => ⟨?_, ?_⟩, fun failure _ => ⟨leaves', nofun⟩⟩
    · rintro _ replayed
      refine ⟨leaves', ?_⟩
      rintro r rfl
      exact Record.finishable_of_replay replayed
    · exact fun failure failed => ⟨leaves', hasPayload_of_misfit (Record.misfit_of_replay failed)⟩

/-- A step is stored and comes into memory, if it leads to what can be finished. -/
theorem completes_advance {next : ParticipantState} {data : Payload}
    (applies : ∀ e : Entry, e.Takes r.transaction r.state next data → ∃ r', r.apply e = .ok r' ∧
      r'.Finishable ∧ (r'.state = .prepared → r'.transaction = r.transaction ∧
        ∃ coordinator payload, data = .prepared coordinator payload ∧ r'.payload = some payload)) :
    Completes self (advance self r next data) (fun _ => True) HasPayload := by
  intro memory w leaves
  refine meets_advance_of ((completes_ask self memory w leaves).imp_ok ?_)
  rintro now memory₁ w₁ ⟨leaves₁, -⟩ e - takes
  obtain ⟨r', apply, finishable, obtains⟩ := applies e takes
  rw [Host.meets_append, apply]
  refine ⟨leaves₁, ?_⟩
  rintro a memory₂ _ ⟨-, equipped, rfl⟩
  have leaves₂ := equipped.leaves (.answered (.inl (.append e)) a : Event (role self))
  constructor
  · rintro ⟨⟩ rfl
    refine ⟨?_, by simp⟩
    rintro _ ⟨⟩
    refine ⟨leaves₂.insert finishable fun prepared => ?_, trivial⟩
    obtain ⟨about, coordinator, payload, carries, carried⟩ := obtains prepared
    exact .prepared (takes.transaction.trans about.symm) (takes.payload.trans carries) carried
  · exact fun failure _ => ⟨leaves₂, nofun⟩

theorem completes_tryPrepare (operations : List AtomicCommit.Operation) :
    Completes self (tryPrepare operations) (fun _ => True) HasPayload := by
  intro memory w leaves
  refine meets_tryPrepare_of ((completes_ask self memory w leaves).imp_ok ?_)
  rintro able memory₁ w₁ ⟨leaves₁, -⟩
  exact ⟨fun _ => ⟨leaves₁, trivial⟩, fun _ => completes_ask self memory₁ w₁ leaves₁⟩

theorem completes_handlePrepare (message : PrepareMessage) :
    Completes self (handlePrepare self message) (fun _ => True) HasPayload := by
  intro memory w leaves
  refine meets_handlePrepare_of ((completes_record? self _ memory w leaves).imp_ok ?_)
  rintro found memory₁ w₁ ⟨leaves₁, -⟩
  refine ⟨fun _ _ => ⟨leaves₁, trivial⟩, fun _ => ?_⟩
  refine (completes_tryPrepare self _ memory₁ w₁ leaves₁).imp_ok ?_
  rintro prepared memory₂ w₂ ⟨leaves₂, -⟩
  constructor
  · intro payload _
    refine (completes_advance self (fun e takes => ?_) memory₂ w₂ leaves₂).mono
      (fun _ _ _ voted => voted) ?_
    · refine ⟨_, Record.apply_of_takes takes rfl, ⟨nofun, fun _ => ?_⟩, fun _ => ?_⟩
      · exact ⟨_, payload, rfl, rfl, rfl⟩
      · exact ⟨rfl, _, payload, rfl, rfl⟩
    · -- what has been prepared is released, and the failure stays what it is
      rintro failure memory₃ w₃ ⟨leaves₃, holds⟩
      exact (completes_ask self memory₃ w₃ leaves₃).imp_ok fun _ _ _ ⟨released, _⟩ =>
        ⟨released, holds⟩
  · intro _
    refine completes_advance self (fun e takes => ?_) memory₂ w₂ leaves₂
    exact ⟨_, Record.apply_of_takes takes rfl, ⟨nofun, by simp⟩, nofun⟩

/-- A decision never meets a prepared record without a payload. -/
theorem completes_handleDecision (tx : TransactionId) (d : Decision) :
    Completes self (handleDecision self tx d) (fun _ => True) HasPayload := by
  intro memory w leaves
  refine meets_handleDecision_of ((completes_record? self tx memory w leaves).imp_ok ?_)
  rintro found memory₁ w₁ ⟨leaves₁, finishable⟩
  constructor
  case aborts =>
    intro _ _
    refine completes_advance self (fun e takes => ?_) memory₁ w₁ leaves₁
    exact ⟨_, Record.apply_of_takes takes rfl, ⟨nofun, by simp⟩, nofun⟩
  case ignores => exact fun _ _ => ⟨leaves₁, trivial⟩
  case repeats => exact fun _ _ _ => ⟨leaves₁, trivial⟩
  case refuses => exact fun _ _ _ _ => ⟨leaves₁, by simp [HasPayload]⟩
  case misses =>
    intro r known prepared missing
    obtain ⟨_, payload, -, -, carried⟩ := (finishable r known).equipped (.inl prepared)
    cases missing.symm.trans carried
  case carries =>
    intro r payload known prepared _
    have stores : Completes self (advance self r (.resolved d) (.resolved d)) (fun _ => True)
        HasPayload := by
      refine completes_advance self fun e takes => ⟨{ r with state := .resolved d }, ?_, ?_, ?_⟩
      · rw [Record.apply_of_takes takes (by rw [prepared]; cases d <;> rfl)]
        simp [Record.step]
      · -- what it has been prepared with is still there
        refine ⟨?_, fun _ => (finishable r known).equipped (.inl prepared)⟩
        cases d <;> simp [ParticipantState.resolved]
      · cases d <;> simp [ParticipantState.resolved]
    have carries : Completes self (carryOut payload d) (fun _ => True) HasPayload := by
      cases d <;> exact completes_ask self
    refine (carries memory₁ w₁ leaves₁).imp_ok ?_
    rintro outcome memory₂ w₂ ⟨leaves₂, -⟩
    exact ⟨fun _ _ => ⟨leaves₂, by simp [HasPayload]⟩, fun _ => stores memory₂ w₂ leaves₂⟩

/-- What is put back has been taken hold of first. -/
theorem completes_restore (finishable : r.Finishable) :
    Completes self (restore r) (fun _ => True)
      fun failure => ∃ fault, failure = .internal fault := by
  intro memory w leaves
  refine meets_restore_of (fun _ => ⟨leaves, trivial⟩) ?_ ?_
  · intro _ payload _ carried
    rw [reacquire, Action.meets_ask]
    refine ⟨leaves, ?_⟩
    rintro a memory₁ _ ⟨-, equipped, rfl⟩
    have leaves₁ := equipped.leaves (.answered (.inr (.restore payload)) a : Event (role self))
    refine ⟨fun fault _ => ⟨leaves₁, fault, rfl⟩, ?_⟩
    rintro rfl
    exact ⟨leaves₁.insert finishable fun _ => .restored carried, trivial⟩
  · intro _ without
    refine ⟨leaves.insert finishable fun prepared => ?_, trivial⟩
    obtain ⟨_, payload, -, -, carried⟩ := finishable.equipped (.inl prepared)
    exact absurd carried (without payload prepared)

/-! ## A recovery -/

/-- A failure that is not for want of a coordinator. -/
def HasCoordinator (failure : RecoveryError) : Prop :=
  ∀ tx, failure ≠ .inconsistent (.missingCoordinator tx)

theorem completes_restoreAll {records : List Record} (all : ∀ r ∈ records, r.Finishable) :
    Completes self (records.forM fun record => discard ((restore record).mapError .ofCommit) :
      RecoveryStep PUnit) (fun _ => True) HasCoordinator := by
  intro memory w leaves
  refine (Action.Meets.forM (P := fun memory (w : Cause self) => w.Leaves memory)
    (fun r listed memory w leaves => ?_) leaves).imp_ok fun _ _ _ left => ⟨left, trivial⟩
  rw [Action.meets_discard, Action.meets_mapError]
  refine (completes_restore self (all r listed) memory w leaves).mono (fun _ _ _ => And.left) ?_
  rintro _ memory₁ w₁ ⟨leaves₁, fault, rfl⟩
  exact ⟨leaves₁, nofun⟩

/-- What is prepared names its coordinator, which is asked. -/
theorem completes_resolve (report : RecoveryReport) (prepared : r.state = .prepared)
    (finishable : r.Finishable) :
    Completes self (resolve self report r) (fun _ => True) HasCoordinator := by
  obtain ⟨coordinator, -, named, -, -⟩ := finishable.equipped (.inl prepared)
  intro memory w leaves
  refine meets_resolve_of (by simp [named]) fun _ _ => ?_
  refine (completes_ask self memory w leaves).imp_ok ?_
  rintro answer memory₁ w₁ ⟨leaves₁, -⟩
  refine ⟨fun d _ => ?_, fun _ => ⟨leaves₁, trivial⟩⟩
  refine (completes_handleDecision self r.transaction d memory₁ w₁ leaves₁).mono
    (fun _ _ _ resolved => resolved) ?_
  rintro failure memory₂ w₂ ⟨leaves₂, -⟩
  exact ⟨fun _ _ => ⟨leaves₂, nofun⟩, fun _ => ⟨leaves₂, trivial⟩⟩

theorem completes_resolveAll {records : List Record}
    (all : ∀ r ∈ records, r.state = .prepared ∧ r.Finishable) (report : RecoveryReport) :
    Completes self (records.foldlM (resolve self) report) (fun _ => True) HasCoordinator := by
  intro memory w leaves
  refine (Action.Meets.foldlM (P := fun memory (w : Cause self) => w.Leaves memory)
    (fun r listed report memory w leaves => ?_) leaves).imp_ok fun _ _ _ left => ⟨left, trivial⟩
  obtain ⟨prepared, finishable⟩ := all r listed
  exact (completes_resolve self report prepared finishable memory w leaves).imp_ok
    fun _ _ _ => And.left

theorem completes_recover :
    Completes self (recover self) (fun _ => True) HasCoordinator := by
  intro memory w leaves
  refine meets_recover_of ?_
  rw [Host.meets_scan]
  refine ⟨leaves, ?_⟩
  rintro a memory₁ _ ⟨⟨log, _, -, read⟩, equipped, rfl⟩
  have leaves₁ := equipped.leaves (.answered (.inl (.scan self)) a : Event (role self))
  refine ⟨?_, fun failure _ => ⟨leaves₁, nofun⟩⟩
  rintro entries rfl
  obtain rfl := read entries rfl
  refine ⟨fun failure failed => ⟨leaves₁, ?_⟩, fun records replayed => ?_⟩
  · have misfit := misfit_of_replayAll failed
    cases misfit <;> simp [HasCoordinator]
  · have all : ∀ r ∈ records, r.state = .prepared ∧ r.Finishable :=
      fun r listed => prepared_of_scan replayed listed
    refine (completes_restoreAll self (fun r listed => (all r listed).2) memory₁ _ leaves₁).imp_ok
      ?_
    exact fun _ memory₂ w₂ ⟨leaves₂, _⟩ => completes_resolveAll self all {} memory₂ w₂ leaves₂

/-! ## All operations -/

/-- A decision has not met a prepared record without a payload, and a recovery none without a
coordinator. -/
def Furnished : (op : Operation) → op.Result → Prop
  | .handleDecision _ _, result => ∀ failure, result = .error failure → HasPayload failure
  | .recover, result => ∀ failure, result = .error failure → HasCoordinator failure
  | _, _ => True

/-- What is looked up is told in one form or another. -/
theorem completes_map_record? (tx : TransactionId) (f : Option Record → α) :
    Completes self (f <$> record? self tx) (fun _ => True) HasPayload := by
  intro memory w leaves
  rw [Action.meets_map]
  exact (completes_record? self tx memory w leaves).imp_ok fun _ _ _ ⟨left, _⟩ => ⟨left, trivial⟩

theorem completes_forget (tx : TransactionId) :
    Completes self (forget self tx) (fun _ => True) fun _ => True := by
  intro memory w leaves
  refine meets_forget_of (fun _ => ⟨leaves, trivial⟩) ?_ fun _ => ⟨leaves, trivial⟩
  exact fun _ _ _ => ⟨leaves.erase tx, trivial⟩

/-- Every operation keeps to the contract. -/
theorem completes_run (op : Operation) (leaves : w.Leaves memory) :
    (run self op memory).Meets (acquiring self)
      (fun outcome w => w.Leaves outcome.2 ∧ Furnished op outcome.1) w := by
  cases op with
  | handlePrepare message =>
    exact (completes_handlePrepare self message).program leaves (fun _ => trivial)
      fun _ _ => trivial
  | handleDecision tx d =>
    exact (completes_handleDecision self tx d).program leaves (fun _ _ => nofun)
      fun _ holds _ failed => Except.error.inj failed ▸ holds
  | queryVote tx =>
    exact (completes_map_record? self tx fun found => found.bind Record.vote).program leaves
      (fun _ => trivial) fun _ _ => trivial
  | queryState tx =>
    exact (completes_map_record? self tx fun found => found.map Record.state).program leaves
      (fun _ => trivial) fun _ _ => trivial
  | queryRecord tx =>
    have looks := completes_map_record? self tx id
    rw [id_map] at looks
    exact looks.program leaves (fun _ => trivial) fun _ _ => trivial
  | forget tx =>
    exact (completes_forget self tx).program leaves (fun _ => trivial) fun _ _ => trivial
  | recover =>
    exact (completes_recover self).program leaves (fun _ _ => nofun)
      fun _ holds _ failed => Except.error.inj failed ▸ holds

end AtomicCommit.Participant

import AtomicCommit.Participant.Recovery
import AtomicCommit.Proofs.Program.Contract
import AtomicCommit.Proofs.Transaction.Record

/-!
# Rules for the actions of a participant

What is to be shown of the questions that an action of a participant asks, and of what is known
between them, for the action to meet a contract, whichever that is. Only these rules depend on how
the actions are put together.

## Main definitions

* `Participant.Polls`, `Participant.Decides`: what is to be shown once a transaction has been looked
  up for which a vote is asked, or a decision is told.

## Main results

* `Participant.meets_record?_of`, `Participant.meets_advance_of`: looking up, and a single step.
* `Participant.meets_handlePrepare_of`, `Participant.meets_handleDecision_of`: the two messages.
* `Participant.meets_forget_of`: dropping a transaction.
* `Participant.meets_restore_of`, `Participant.meets_resolve_of`, `Participant.meets_recover_of`: a
  recovery.
-/

namespace AtomicCommit.Participant

variable {self : ProcessId} {W : Type} {c : Contract (interface.sharing Memory) W}
  {memory : Memory} {w : W} {tx : TransactionId} {r : Record} {payload : PreparedPayload}
  {err : CommitError → Memory → W → Prop}

/-- A record is found in memory, or the log is read and replayed. -/
theorem meets_record?_of {ok : Option Record → Memory → W → Prop}
    (cached : ∀ r, memory.get? tx = some r → ok (some r) memory w)
    (loads : memory.get? tx = none →
      (Host.load tx : Action interface Memory LogError (List Entry)).Meets c
        (fun entries memory w =>
          (∀ found, Record.replay (entries.filter fun e => e.actor = self) = .ok found →
            ok found memory w) ∧
          ∀ failure, Record.replay (entries.filter fun e => e.actor = self) = .error failure →
            err (.invalidState failure) memory w)
        (fun failure => err (.log failure)) memory w) :
    (record? self tx).Meets c ok err memory w := by
  rw [record?, Action.meets_bind, Action.meets_get]
  cases known : memory.get? tx with
  | some r => exact cached r known
  | none =>
    simp only [Action.meets_bind, Action.meets_mapError, Host.history]
    refine (loads known).imp_ok fun entries memory w replays => ?_
    rw [Action.meets_pure, Action.meets_ofExcept]
    exact replays

/-- The clock is read, the entry is stored, and what it leads to is put into memory. -/
theorem meets_advance_of {next : ParticipantState} {data : Payload}
    {ok : Unit → Memory → W → Prop}
    (stores : (Host.now : Step Timestamp).Meets c
      (fun _ memory w => ∀ e : Entry, e.actor = self →
        e.Takes r.transaction r.state next data →
        (Host.append e : Action interface Memory LogError Unit).Meets c
          (fun _ memory w =>
            (∀ r', r.apply e = .ok r' → ok () (memory.insert r'.transaction r') w) ∧
            ∀ failure, r.apply e = .error failure → err (.invalidState failure) memory w)
          (fun failure => err (.log failure)) memory w) err memory w) :
    (advance self r next data).Meets c ok err memory w := by
  rw [advance, Action.meets_bind]
  refine stores.imp_ok fun now memory w appends => ?_
  rw [Action.meets_bind, Action.meets_mapError]
  refine (appends (entry self r next data now) rfl ⟨rfl, rfl, rfl, rfl⟩).imp_ok ?_
  rintro _ memory w ⟨applied, failed⟩
  rw [Action.meets_bind, Action.meets_ofExcept]
  exact ⟨applied, failed⟩

/-! ## Votes -/

/-- The resource manager checks the operations, and prepares them if it can commit them. -/
theorem meets_tryPrepare_of {operations : List AtomicCommit.Operation}
    {ok : Option PreparedPayload → Memory → W → Prop}
    (checks : (canCommit operations : Step (Except Fault Bool)).Meets c
      (fun able memory w => (able ≠ .ok true → ok none memory w) ∧
        (able = .ok true → (prepare operations : Step (Except Fault PreparedPayload)).Meets c
          (fun prepared => ok prepared.toOption) err memory w)) err memory w) :
    (tryPrepare operations).Meets c ok err memory w := by
  rw [tryPrepare, Action.meets_bind]
  refine checks.imp_ok ?_
  rintro able memory w ⟨unable, prepares⟩
  split
  · rw [Action.meets_bind]
    refine (prepares rfl).imp_ok fun prepared memory w prepared => ?_
    split <;> exact prepared
  · rename_i unable'
    exact unable unable'

/-- What is to be shown of a vote once the transaction has been looked up. -/
structure Polls (c : Contract (interface.sharing Memory) W) (p : ProcessId)
    (message : PrepareMessage) (ok : Vote → Memory → W → Prop)
    (err : CommitError → Memory → W → Prop) (found : Option Record) (memory : Memory) (w : W) :
    Prop where
  /-- What is known is told. -/
  known : ∀ r, found = some r → ok (r.vote.getD .no) memory w
  /-- Else the resource manager is asked, and its vote stored; what it has prepared is released if
  that can not be stored. -/
  unknown : found = none → (tryPrepare message.operations).Meets c
    (fun prepared memory w =>
      (∀ payload, prepared = some payload →
        (advance p { transaction := message.transaction, coordinator := some message.coordinator }
            .prepared (.prepared message.coordinator payload)).Meets c (fun _ => ok .yes)
          (fun failure => (abort payload : Step (Except Fault Unit)).Meets c (fun _ => err failure)
            err) memory w) ∧
      (prepared = none →
        (advance p { transaction := message.transaction, coordinator := some message.coordinator }
            .aborted (.voted message.coordinator .no)).Meets c (fun _ => ok .no) err memory w))
    err memory w

theorem meets_handlePrepare_of {message : PrepareMessage} {ok : Vote → Memory → W → Prop}
    (polls : (record? self message.transaction).Meets c (Polls c self message ok err) err memory
      w) :
    (handlePrepare self message).Meets c ok err memory w := by
  rw [handlePrepare, Action.meets_bind]
  refine polls.imp_ok fun found memory w polls => ?_
  cases found with
  | some r => exact polls.known r rfl
  | none =>
    dsimp only
    rw [Action.meets_bind]
    refine (polls.unknown rfl).imp_ok ?_
    rintro prepared memory w ⟨assents, refuses⟩
    cases prepared with
    | some payload =>
      rw [Action.meets_bind, Action.meets_tryCatch]
      refine (assents payload rfl).mono (fun _ _ _ voted => voted) ?_
      intro failure memory w releases
      rw [Action.meets_bind, Action.meets_discard]
      exact releases
    | none =>
      rw [Action.meets_bind]
      exact refuses rfl

/-! ## Decisions -/

/-- The resource manager carries out a decision. -/
def carryOut (payload : PreparedPayload) : Decision → Step (Except Fault Unit)
  | .commit => commit payload
  | .abort => abort payload

/-- What is to be shown of a decision once the transaction has been looked up. -/
structure Decides (c : Contract (interface.sharing Memory) W) (p : ProcessId)
    (tx : TransactionId) (d : Decision) (ok : Unit → Memory → W → Prop)
    (err : CommitError → Memory → W → Prop) (found : Option Record) (memory : Memory) (w : W) :
    Prop where
  /-- An abort of an unknown transaction is stored. -/
  aborts : found = none → d = .abort →
    (advance p { transaction := tx, coordinator := none } .aborted (.resolved .abort)).Meets c ok
      err memory w
  /-- A commit leaves no trace. -/
  ignores : found = none → d = .commit → ok () memory w
  /-- What has been applied is acknowledged again. -/
  repeats : ∀ r, found = some r → r.state = .resolved d → ok () memory w
  /-- What can not be applied is refused. -/
  refuses : ∀ r, found = some r → r.state ≠ .resolved d → r.state ≠ .prepared →
    err (.invalidState (.notApplicable tx r.state p d)) memory w
  /-- What is prepared has a payload. -/
  misses : ∀ r, found = some r → r.state = .prepared → r.payload = none →
    err (.invalidState (.missingPayload tx)) memory w
  /-- The resource manager carries out the decision, and it is stored. -/
  carries : ∀ r payload, found = some r → r.state = .prepared → r.payload = some payload →
    (carryOut payload d).Meets c
      (fun outcome memory w => (∀ failure, outcome = .error failure →
          err (.internal failure) memory w) ∧
        (outcome = .ok () →
          (advance p r (.resolved d) (.resolved d)).Meets c ok err memory w)) err memory w

theorem meets_handleDecision_of {d : Decision} {ok : Unit → Memory → W → Prop}
    (decides : (record? self tx).Meets c (Decides c self tx d ok err) err memory w) :
    (handleDecision self tx d).Meets c ok err memory w := by
  rw [handleDecision, Action.meets_bind]
  refine decides.imp_ok fun found memory w decides => ?_
  cases found with
  | none =>
    dsimp only
    split
    · rename_i aborts
      exact decides.aborts rfl aborts
    · rename_i commits
      exact decides.ignores rfl (by cases d <;> simp_all)
  | some r =>
    dsimp only
    split
    · rename_i applied
      exact decides.repeats r rfl (by simpa [Record.hasApplied] using applied)
    rename_i unapplied
    have unapplied : r.state ≠ .resolved d := by simpa [Record.hasApplied] using unapplied
    split
    · rename_i unprepared
      exact decides.refuses r rfl unapplied unprepared
    rename_i prepared
    have prepared : r.state = .prepared := Decidable.not_not.1 prepared
    split
    · rename_i missing
      exact decides.misses r rfl prepared missing
    · rename_i payload carried
      have carries := decides.carries r payload rfl prepared carried
      cases d with
      | commit =>
        rw [Action.meets_bind]
        refine Action.Meets.imp_ok carries ?_
        rintro outcome memory w ⟨failed, stores⟩
        rw [Action.meets_bind, Action.meets_ofExcept]
        exact ⟨fun _ done => stores done, failed⟩
      | abort =>
        rw [Action.meets_bind]
        refine Action.Meets.imp_ok carries ?_
        rintro outcome memory w ⟨failed, stores⟩
        rw [Action.meets_bind, Action.meets_ofExcept]
        exact ⟨fun _ done => stores done, failed⟩

/-- A transaction is dropped from memory if it is resolved. -/
theorem meets_forget_of {ok : Bool → Memory → W → Prop}
    (absent : memory.get? tx = none → ok false memory w)
    (drops : ∀ r, memory.get? tx = some r → r.state.isTerminal = true → ok true (memory.erase tx) w)
    (refuses : ∀ failure, err failure memory w) : (forget self tx).Meets c ok err memory w := by
  rw [forget, Action.meets_bind, Action.meets_get]
  cases cached : memory.get? tx with
  | none => exact absent cached
  | some r =>
    dsimp only
    split
    · rename_i terminal
      exact drops r cached terminal
    · exact refuses _

/-! ## Recovery -/

/-- A record is put into memory unless it is there; what it holds is taken hold of first. -/
theorem meets_restore_of {ok : Bool → Memory → W → Prop}
    (present : memory.contains r.transaction = true → ok false memory w)
    (holds : memory.contains r.transaction = false → ∀ payload, r.state = .prepared →
      r.payload = some payload → (reacquire payload : Step (Except Fault Unit)).Meets c
        (fun held memory w =>
          (∀ failure, held = .error failure → err (.internal failure) memory w) ∧
          (held = .ok () → ok true (memory.insert r.transaction r) w)) err memory w)
    (plain : memory.contains r.transaction = false →
      (∀ payload, r.state = .prepared → r.payload ≠ some payload) →
      ok true (memory.insert r.transaction r) w) :
    (restore r).Meets c ok err memory w := by
  rw [restore, Action.meets_bind, Action.meets_get]
  split
  · rename_i there
    exact present there
  · rename_i missing
    have missing : memory.contains r.transaction = false := by simpa using missing
    dsimp only
    split
    · rename_i payload prepared carried
      rw [Action.meets_bind]
      refine (holds missing payload prepared carried).imp_ok ?_
      rintro held memory w ⟨failed, restored⟩
      rw [Action.meets_bind, Action.meets_ofExcept]
      exact ⟨fun _ done => restored done, failed⟩
    · rename_i other
      exact plain missing fun payload prepared carried => other payload prepared carried

/-- The coordinator is asked, and what it has decided is carried out. -/
theorem meets_resolve_of {report : RecoveryReport} {ok : RecoveryReport → Memory → W → Prop}
    {err : RecoveryError → Memory → W → Prop}
    (unnamed : r.coordinator = none → ∀ failure, err failure memory w)
    (asks : ∀ coordinator, r.coordinator = some coordinator →
      (askDecision coordinator r.transaction : RecoveryStep _).Meets c
        (fun answer memory w =>
          (∀ d, answer = .ok (some d) → (handleDecision self r.transaction d).Meets c
            (fun _ => ok { report with resolved := report.resolved ++ [(r.transaction, d)] })
            (fun failure memory w => (∀ cause, failure = .log cause → err (.log cause) memory w) ∧
              ((∀ cause, failure ≠ .log cause) →
                ok { report with blocked := report.blocked ++ [r.transaction] } memory w))
            memory w) ∧
          ((∀ d, answer ≠ .ok (some d)) →
            ok { report with blocked := report.blocked ++ [r.transaction] } memory w))
        err memory w) :
    (resolve self report r).Meets c ok err memory w := by
  rw [resolve]
  cases named : r.coordinator with
  | none => exact unnamed named _
  | some coordinator =>
    dsimp only
    rw [Action.meets_bind]
    refine (asks coordinator named).imp_ok ?_
    rintro answer memory w ⟨told, untold⟩
    split
    · rename_i d
      rw [Action.meets_bind, Action.meets_attempt]
      refine (told d rfl).mono (fun _ _ _ resolved => resolved) ?_
      rintro failure memory w ⟨failed, blocked⟩
      cases failure with
      | log cause => exact failed cause rfl
      | _ => exact blocked (by simp)
    · rename_i other
      exact untold other

/-- What is unfinished is read and replayed, all of it is put back, and then resolved. -/
theorem meets_recover_of {ok : RecoveryReport → Memory → W → Prop}
    {err : RecoveryError → Memory → W → Prop}
    (scans : (Host.scan self : Action interface Memory LogError (List Entry)).Meets c
      (fun entries memory w =>
        (∀ failure, replayAll entries = .error failure → err (.inconsistent failure) memory w) ∧
        ∀ records, replayAll entries = .ok records →
          (records.forM fun record => discard ((restore record).mapError .ofCommit) :
            RecoveryStep PUnit).Meets c
            (fun _ => (records.foldlM (resolve self) {}).Meets c ok err) err memory w)
      (fun failure => err (.log failure)) memory w) :
    (recover self).Meets c ok err memory w := by
  rw [recover, Action.meets_bind, Action.meets_mapError]
  refine scans.imp_ok ?_
  rintro entries memory w ⟨failed, restores⟩
  rw [Action.meets_bind, Action.meets_ofExcept]
  refine ⟨fun records replayed => ?_, failed⟩
  rw [Action.meets_bind]
  exact restores records replayed

end AtomicCommit.Participant

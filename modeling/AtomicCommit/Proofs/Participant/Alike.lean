import AtomicCommit.Participant.Recovery
import AtomicCommit.Proofs.Log.History
import AtomicCommit.Proofs.Program.Alike

/-!
# What a participant shows does not depend on its memory

How a participant deals with a message on a transaction depends on its memory only through the
record that it finds. So two participants that find the same record deal with the message alike,
and what they have in common otherwise they keep.

Reading the log leaves no trace, and neither does having the resource manager take hold again of
what it had prepared. As far as anybody else can tell, a participant acts in the same way on every
memory that says of a transaction only what the log says.

## Main definitions

* `Participant.Common`: what two participants keep in common, whatever they are answered.
* `Participant.Faithful`: a memory says what the log says.
* `Participant.view`: what others see of a participant.

## Main results

* `Participant.Common.handlePrepare`, `Participant.Common.handleDecision`: messages are dealt with
  alike by who finds the same record.
* `Participant.alike_handlePrepare`, `Participant.alike_handleDecision`,
  `Participant.alike_recover`.
-/

namespace AtomicCommit

namespace Participant

/-- What is answered at once and leaves no trace: the log is read, and the resource manager takes
hold of what it had prepared. -/
def silent (log : List Entry) : (q : interface.Request) → Option (interface.Answer q)
  | .inl (.load tx) => some (.ok (Log.load log tx))
  | .inl (.scan actor) => some (.ok (Log.scanIncomplete log actor))
  | .inr (.restore _) => some (.ok ())
  | _ => none

theorem silent_eq_none {log : List Entry} {q : interface.Request} (h : silent log q = none)
    (log' : List Entry) : silent log' q = none := by
  rcases q with q | q <;> cases q <;> first | rfl | cases h

/-! ## Messages -/

/-- Two participants have something in common that they keep while they deal with a message: they
ask the same of others, are answered the same, and put the same records into memory. -/
structure Common {W : Type} (V : View interface Memory W)
    (keeps : W → Memory → W → Memory → Prop) : Prop where
  /-- A question that leaves a trace is noticed. -/
  noticed : ∀ q w, silent [] q = none → V.silent w q = none
  /-- Nothing else has to be known when it is asked. -/
  asks : ∀ q w memory w' memory', silent [] q = none → keeps w memory w' memory' →
    V.asks q w memory w' memory'
  /-- Both are answered the same. -/
  agrees : ∀ q a a', silent [] q = none → V.agrees q a a' → a = a'
  /-- They have as much in common when they are answered. -/
  resumes : ∀ q w memory w' memory', V.resumes q w memory w' memory' → keeps w memory w' memory'
  /-- And when they have put the same record into memory. -/
  insert : ∀ w memory w' memory' (r : Record), keeps w memory w' memory' →
    keeps w (memory.insert r.transaction r) w' (memory'.insert r.transaction r)

section Common

variable {W : Type} {V : View interface Memory W} {keeps : W → Memory → W → Memory → Prop}
  {w w' : W} {memory memory' : Memory} {self : ProcessId} {r : Record} {tx : TransactionId}
  {d : Decision}

theorem Common.ask {ε : Type} {q : interface.Request} (c : Common V keeps)
    (trace : silent [] q = none) (h : keeps w memory w' memory') :
    (Action.ask q : Action interface Memory ε _).Alike V keeps w memory w' memory' :=
  Action.alike_ask (fun w => c.noticed q w trace) (fun a a' => c.agrees q a a' trace)
    (c.asks q w memory w' memory' trace h) (c.resumes q)

theorem Common.append {e : Entry} (c : Common V keeps) (h : keeps w memory w' memory') :
    (Host.append e : Action interface Memory LogError Unit).Alike V keeps w memory w' memory' :=
  Action.alike_bind (c.ask rfl h) (fun _ _ _ _ _ known => Action.alike_ofExcept known)
    fun _ _ _ _ known => known

theorem Common.advance {next : ParticipantState} {payload : Payload} (c : Common V keeps)
    (h : keeps w memory w' memory') :
    (advance self r next payload).Alike V keeps w memory w' memory' := by
  refine Action.alike_bind (c.ask rfl h) ?_ fun _ _ _ _ known => known
  intro now w₁ memory₁ w₁' memory₁' known
  refine Action.alike_bind (Action.alike_mapError (c.append known)) ?_ fun _ _ _ _ known => known
  intro _ w₂ memory₂ w₂' memory₂' known
  refine Action.alike_bind (Action.alike_ofExcept known) ?_ fun _ _ _ _ known => known
  exact fun r w memory w' memory' known =>
    Action.alike_modify (c.insert w memory w' memory' r known)

theorem Common.tryPrepare {operations : List AtomicCommit.Operation} (c : Common V keeps)
    (h : keeps w memory w' memory') :
    (tryPrepare operations).Alike V keeps w memory w' memory' := by
  refine Action.alike_bind (c.ask rfl h) ?_ fun _ _ _ _ known => known
  intro willing w₁ memory₁ w₁' memory₁' known
  split
  · refine Action.alike_bind (c.ask rfl known) ?_ fun _ _ _ _ known => known
    intro prepared w₂ memory₂ w₂' memory₂' known
    split
    · exact Action.alike_pure known
    · exact Action.alike_pure known
  · exact Action.alike_pure known

/-- A request for a vote is dealt with alike by who finds the same record. -/
theorem Common.handlePrepare {message : PrepareMessage} (c : Common V keeps)
    (found : (record? self message.transaction).Alike V keeps w memory w' memory') :
    (handlePrepare self message).Alike V keeps w memory w' memory' := by
  refine Action.alike_bind found ?_ fun _ _ _ _ known => known
  intro found w₁ memory₁ w₁' memory₁' known
  cases found with
  | some r => exact Action.alike_pure known
  | none =>
    refine Action.alike_bind (c.tryPrepare known) ?_ fun _ _ _ _ known => known
    intro payload w₂ memory₂ w₂' memory₂' known
    cases payload with
    | none =>
      exact Action.alike_bind (c.advance known) (fun _ _ _ _ _ known => Action.alike_pure known)
        fun _ _ _ _ known => known
    | some payload =>
      refine Action.alike_bind ?_ (fun _ _ _ _ _ known => Action.alike_pure known)
        fun _ _ _ _ known => known
      refine Action.alike_tryCatch (c.advance known) ?_ fun _ _ _ _ known => known
      intro failure w₃ memory₃ w₃' memory₃' known
      exact Action.alike_bind (Action.alike_discard (c.ask rfl known))
        (fun _ _ _ _ _ known => Action.alike_throw known) fun _ _ _ _ known => known

/-- So is a decision. -/
theorem Common.handleDecision (c : Common V keeps)
    (found : (record? self tx).Alike V keeps w memory w' memory') :
    (handleDecision self tx d).Alike V keeps w memory w' memory' := by
  rw [Participant.handleDecision]
  refine Action.alike_bind found ?_ fun _ _ _ _ known => known
  intro found w₁ memory₁ w₁' memory₁' known
  cases found with
  | none =>
    dsimp only
    split
    · exact c.advance known
    · exact Action.alike_pure known
  | some r =>
    dsimp only
    split
    · exact Action.alike_pure known
    split
    · exact Action.alike_throw known
    split
    · exact Action.alike_throw known
    rename_i payload _
    have carriedOut : ∀ (outcome : Except Fault Unit) w memory w' memory',
        keeps w memory w' memory' →
        (do
          Action.ofExcept .internal outcome
          Participant.advance self r (.resolved d) (.resolved d) : Step Unit).Alike V keeps w memory
            w' memory' :=
      fun outcome w memory w' memory' known =>
        Action.alike_bind (Action.alike_ofExcept known) (fun _ _ _ _ _ known => c.advance known)
          fun _ _ _ _ known => known
    cases d with
    | commit => exact Action.alike_bind (c.ask rfl known) carriedOut fun _ _ _ _ known => known
    | abort => exact Action.alike_bind (c.ask rfl known) carriedOut fun _ _ _ _ known => known

theorem alike_queryVote (found : (record? self tx).Alike V keeps w memory w' memory') :
    (queryVote self tx).Alike V keeps w memory w' memory' :=
  Action.alike_bind found (fun _ _ _ _ _ known => Action.alike_pure known)
    fun _ _ _ _ known => known

theorem alike_state? (found : (record? self tx).Alike V keeps w memory w' memory') :
    (state? self tx).Alike V keeps w memory w' memory' :=
  Action.alike_bind found (fun _ _ _ _ _ known => Action.alike_pure known)
    fun _ _ _ _ known => known

end Common

/-! ## What others see of a participant -/

variable (self : ProcessId)

/-- What is in memory of a transaction is what its history replays to. -/
def Faithful (log : List Entry) (memory : Memory) : Prop :=
  ∀ tx r, memory.get? tx = some r → Record.replay (Log.history log self tx) = .ok (some r)

/-- Two participants of one name have written the same. -/
def SameEntries (log : List Entry) (_ : Memory) (log' : List Entry) (_ : Memory) : Prop :=
  Log.own log self = Log.own log' self

/-- They have also in memory only what the log says. -/
structure Trusts (p : ProcessId) (log : List Entry) (memory : Memory) (log' : List Entry)
    (memory' : Memory) : Prop where
  /-- They have written the same. -/
  same : SameEntries p log memory log' memory'
  /-- The first memory is faithful. -/
  left : Faithful p log memory
  /-- So is the second. -/
  right : Faithful p log' memory'

/-- What others see of a participant. Whenever it is answered it finds its memory faithful; only
right after an entry is stored the memory has yet to follow. -/
def view : View interface Memory (List Entry) where
  silent := silent
  asks _ _ _ _ _ := True
  agrees _ a a' := a = a'
  resumes q log memory log' memory' :=
    SameEntries self log memory log' memory' ∧
      ((∀ e, q ≠ .inl (.append e)) → Trusts self log memory log' memory')

variable {self} {log log' : List Entry} {memory memory' : Memory} {tx : TransactionId}

/-! ## Reading -/

theorem SameEntries.history (h : SameEntries self log memory log' memory') (tx : TransactionId) :
    Log.history log self tx = Log.history log' self tx := by
  rw [← Log.history_own log, h, Log.history_own log']

theorem SameEntries.scan (h : SameEntries self log memory log' memory') :
    Log.scanIncomplete log self = Log.scanIncomplete log' self := by
  rw [← Log.scanIncomplete_own log, h, Log.scanIncomplete_own log']

section Silent

variable {α : Type}

theorem hush_load
    {next : Except LogError (List Entry) × Memory → Program (interface.sharing Memory) α} :
    (Program.ask (I := interface.sharing Memory) (.inl (.load tx), memory) next).hush (view self)
      log = (next (.ok (Log.load log tx), memory)).hush (view self) log := rfl

theorem hush_scan
    {next : Except LogError (List Entry) × Memory → Program (interface.sharing Memory) α} :
    (Program.ask (I := interface.sharing Memory) (.inl (.scan self), memory) next).hush (view self)
      log = (next (.ok (Log.scanIncomplete log self), memory)).hush (view self) log := rfl

theorem hush_reacquire {payload : PreparedPayload}
    {next : Except Fault Unit × Memory → Program (interface.sharing Memory) α} :
    (Program.ask (I := interface.sharing Memory) (.inr (.restore payload), memory) next).hush
      (view self) log = (next (.ok (), memory)).hush (view self) log := rfl

end Silent

/-- What a faithful memory knows of a transaction is what the log replays to. -/
theorem hush_record? (h : Faithful self log memory) :
    ((record? self tx).program memory).hush (view self) log =
      .done ((Record.replay (Log.history log self tx)).mapError .invalidState, memory) := by
  cases cached : memory.get? tx with
  | some r =>
    rw [h tx r cached]
    simp [record?, Action.program_bind, cached, Program.hush, Except.mapError]
  | none =>
    simp only [record?, Action.program_bind, Action.program_get, Program.done_bind, cached,
      Action.program_mapError, Host.program_history, Program.ask_bind]
    refine hush_load.trans ?_
    simp [Except.map, Except.mapError, Log.filter_load_eq_history, Program.hush]

theorem alike_record? (h : Trusts self log memory log' memory') :
    (record? self tx).Alike (view self) (Trusts self) log memory log' memory' := by
  refine Program.Alike.of_hush ?_
  rw [hush_record? h.left, hush_record? h.right, h.same.history]
  exact .done ⟨rfl, h⟩

/-- Who has written the same keeps it in common. -/
theorem common : Common (view self) (SameEntries self) where
  noticed _ log trace := silent_eq_none trace log
  asks _ _ _ _ _ _ _ := trivial
  agrees _ _ _ _ same := same
  resumes _ _ _ _ _ known := known.1
  insert _ _ _ _ _ same := same

theorem alike_handlePrepare {message : PrepareMessage} (h : Trusts self log memory log' memory') :
    (handlePrepare self message).Alike (view self) (SameEntries self) log memory log' memory' :=
  common.handlePrepare ((alike_record? h).mono fun _ _ _ _ => Trusts.same)

theorem alike_handleDecision {d : Decision} (h : Trusts self log memory log' memory') :
    (handleDecision self tx d).Alike (view self) (SameEntries self) log memory log' memory' :=
  common.handleDecision ((alike_record? h).mono fun _ _ _ _ => Trusts.same)

/-! ## Recovery -/

section Recovery

variable {r : Record}

theorem alike_scan (h : SameEntries self log memory log' memory') :
    (Host.scan self : Action interface Memory LogError (List Entry)).Alike (view self)
      (SameEntries self) log memory log' memory' := by
  refine Program.Alike.of_hush ?_
  rw [Host.program_scan, Host.program_scan, hush_scan, hush_scan, h.scan]
  exact .done ⟨rfl, h⟩

/-- To put a record back into memory leaves no trace. -/
theorem hush_restore (log : List Entry) (memory : Memory) (r : Record) : ∃ new memory₁,
    ((restore r).program memory).hush (view self) log = .done (.ok new, memory₁) := by
  have kept : ((do
      modify fun memory => memory.insert r.transaction r
      return true : Step Bool).program memory).hush (view self) log =
        .done (.ok true, memory.insert r.transaction r) := rfl
  simp only [restore, Action.program_bind, Action.program_get, Program.done_bind]
  split
  · exact ⟨false, memory, rfl⟩
  · split
    · rename_i payload _ _
      refine ⟨true, memory.insert r.transaction r, ?_⟩
      rw [Action.program_bind, program_reacquire, Program.ask_bind]
      exact hush_reacquire.trans kept
    · exact ⟨true, memory.insert r.transaction r, kept⟩

theorem alike_restore (h : SameEntries self log memory log' memory') :
    (discard ((restore r).mapError .ofCommit) : RecoveryStep PUnit).Alike (view self)
      (SameEntries self) log memory log' memory' := by
  have silently : ∀ log memory, ∃ memory₁,
      ((discard ((restore r).mapError .ofCommit) : RecoveryStep PUnit).program memory).hush
        (view self) log = .done (.ok ⟨⟩, memory₁) := by
    intro log memory
    obtain ⟨new, memory₁, restored⟩ : ∃ new memory₁,
        ((restore r).program memory).hush (view self) log = .done (.ok new, memory₁) :=
      hush_restore log memory r
    refine ⟨memory₁, ?_⟩
    rw [Functor.discard, LawfulFunctor.map_const, Function.comp_apply, Action.program_map,
      Action.program_mapError, Program.hush_bind (Program.hush_bind restored)]
    rfl
  obtain ⟨memory₁, left⟩ := silently log memory
  obtain ⟨memory₁', right⟩ := silently log' memory'
  refine Program.Alike.of_hush ?_
  rw [left, right]
  exact .done ⟨rfl, h⟩

theorem alike_restoreAll {records : List Record} (h : SameEntries self log memory log' memory') :
    (records.forM fun record => discard ((restore record).mapError .ofCommit) :
      RecoveryStep PUnit).Alike (view self) (SameEntries self) log memory log' memory' := by
  induction records generalizing log memory log' memory' with
  | nil => exact Action.alike_pure h
  | cons r rest ih =>
    rw [List.forM_eq_forM, List.forM_cons]
    exact Action.alike_bind (alike_restore h) (fun _ _ _ _ _ same => ih same)
      fun _ _ _ _ same => same

/-- To ask for a decision and to apply it looks the same, whatever is in memory before. -/
theorem alike_resolve {report : RecoveryReport} (h : SameEntries self log memory log' memory') :
    (resolve self report r).Alike (view self) (SameEntries self) log memory log' memory' := by
  unfold resolve
  dsimp only
  split
  · exact Action.alike_throw h
  rename_i coordinator _
  have asked : (askDecision coordinator r.transaction :
      RecoveryStep (Except TransportError (Option Decision))).Alike (view self) (Trusts self) log
        memory log' memory' :=
    Action.alike_ask (fun _ => rfl) (fun _ _ same => same) trivial
      fun _ _ _ _ resumes => resumes.2 fun _ => Sum.inr_ne_inl
  refine Action.alike_bind asked ?_ fun _ _ _ _ known => known.same
  intro answer log₁ memory₁ log₁' memory₁' known
  split
  · refine Action.alike_bind (Action.alike_attempt (alike_handleDecision known)) ?_
      fun _ _ _ _ same => same
    intro applied log₂ memory₂ log₂' memory₂' same
    split
    · exact Action.alike_pure same
    · exact Action.alike_throw same
    · exact Action.alike_pure same
  · exact Action.alike_pure known.same

theorem alike_resolveAll {records : List Record} {report : RecoveryReport}
    (h : SameEntries self log memory log' memory') :
    (records.foldlM (resolve self) report).Alike (view self) (SameEntries self) log memory log'
      memory' := by
  induction records generalizing report log memory log' memory' with
  | nil => exact Action.alike_pure h
  | cons r rest ih =>
    rw [List.foldlM_cons]
    exact Action.alike_bind (alike_resolve h) (fun _ _ _ _ _ same => ih same)
      fun _ _ _ _ same => same

theorem alike_recover (h : SameEntries self log memory log' memory') :
    (recover self).Alike (view self) (SameEntries self) log memory log' memory' := by
  refine Action.alike_bind (Action.alike_mapError (alike_scan h)) ?_ fun _ _ _ _ same => same
  intro entries log₁ memory₁ log₁' memory₁' same
  refine Action.alike_bind (Action.alike_ofExcept same) ?_ fun _ _ _ _ same => same
  intro records log₂ memory₂ log₂' memory₂' same
  exact Action.alike_bind (alike_restoreAll same) (fun _ _ _ _ _ same => alike_resolveAll same)
    fun _ _ _ _ same => same

end Recovery

end Participant

end AtomicCommit

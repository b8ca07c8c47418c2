import AtomicCommit.Proofs.Participant.Alike
import AtomicCommit.Proofs.Participant.Conduct

/-!
# What a call on a transaction depends on

A call on a transaction finds the record of that transaction only, and reads of the log only what
the participant has written of it. So it does the same on any two memories that have the same record
of the transaction, and is told the same by a log that holds nothing else.

## Main definitions

* `Participant.Operation.transaction?`: the transaction that an operation is about.
* `Participant.told`: what an answer tells a participant.
* `Participant.viewOf`: what is seen of a participant that deals with a transaction.

## Main results

* `Participant.alike_run_viewOf`: a call depends on the memory only through the one record.
* `Participant.answers_told`: what a log of one's own for a transaction answers.
* `Participant.locks_subset`: a call on a transaction has no other to itself.
-/

namespace AtomicCommit.Participant

/-- The transaction that an operation is about; a recovery is about all. -/
def Operation.transaction? : Operation → Option TransactionId
  | .handlePrepare message => some message.transaction
  | .handleDecision tx _ | .queryVote tx | .queryState tx | .queryRecord tx | .forget tx => some tx
  | .recover => none

variable (self : ProcessId)

/-- What an answer tells a participant: of the entries that are read, only its own. -/
def told : (q : interface.Request) → interface.Answer q → interface.Answer q
  | .inl (.load _), found => Except.map (List.filter fun e => e.actor = self) found
  | _, a => a

/-- Two participants have the same record of a transaction in memory. -/
def SameCopy (tx : TransactionId) (_ : Unit) (memory : Memory) (_ : Unit) (memory' : Memory) :
    Prop :=
  memory.get? tx = memory'.get? tx

/-- The question is none that reads the log for another transaction. -/
def ReadsOnly (tx : TransactionId) : interface.Request → Prop
  | .inl (.load tx') => tx' = tx
  | .inl (.scan _) => False
  | _ => True

/-- What is seen of a participant that deals with a transaction. -/
def viewOf (tx : TransactionId) : View interface Memory Unit where
  silent _ _ := none
  asks q w memory w' memory' := ReadsOnly tx q ∧ SameCopy tx w memory w' memory'
  agrees q a a' := told self q a = told self q a'
  resumes _ := SameCopy tx

variable {self} {tx : TransactionId} {w w' : Unit} {memory memory' : Memory}

theorem common_viewOf : Common (viewOf self tx) (SameCopy tx) where
  noticed _ _ _ := rfl
  asks q _ _ _ _ trace same := by
    refine ⟨?_, same⟩
    rcases q with q | q
    · cases q with
      | load _ => cases trace
      | scan _ => cases trace
      | _ => trivial
    · trivial
  agrees q a a' trace same := by
    rcases q with q | q
    · cases q with
      | load _ => cases trace
      | _ => exact same
    · exact same
  resumes _ _ _ _ _ same := same
  insert _ _ _ _ _ same := by
    simp only [SameCopy, SortedMap.get?_insert]
    rw [show _ = _ from same]

theorem alike_history (h : SameCopy tx w memory w' memory') :
    (Host.history self tx : Action interface Memory LogError (List Entry)).Alike (viewOf self tx)
      (SameCopy tx) w memory w' memory' := by
  rw [Action.Alike, Host.program_history, Host.program_history]
  exact .ask rfl rfl ⟨rfl, h⟩ fun _ _ _ _ _ _ agrees same => .done ⟨agrees, same⟩

/-- Who has the same copy and reads the same history finds the same record. -/
theorem alike_record?_viewOf (h : SameCopy tx w memory w' memory') :
    (record? self tx).Alike (viewOf self tx) (SameCopy tx) w memory w' memory' := by
  refine Action.alike_get ?_
  rw [show memory.get? tx = memory'.get? tx from h]
  cases memory'.get? tx with
  | some r => exact Action.alike_pure h
  | none =>
    exact Action.alike_bind (Action.alike_mapError (alike_history h))
      (fun _ _ _ _ _ same => Action.alike_ofExcept same) fun _ _ _ _ same => same

theorem alike_forget (h : SameCopy tx w memory w' memory') :
    (forget self tx).Alike (viewOf self tx) (SameCopy tx) w memory w' memory' := by
  refine Action.alike_get ?_
  rw [show memory.get? tx = memory'.get? tx from h]
  cases memory'.get? tx with
  | none => exact Action.alike_pure h
  | some r =>
    dsimp only
    split
    · have erased : SameCopy tx w (memory.erase tx) w' (memory'.erase tx) := by
        simp [SameCopy, SortedMap.get?_erase]
      exact Action.alike_bind (Action.alike_modify erased)
        (fun _ _ _ _ _ same => Action.alike_pure same) fun _ _ _ _ same => same
    · exact Action.alike_throw h

/-- Two outcomes with the same result and the same copy. -/
def SameOutcome {α : Type} (tx : TransactionId) (w w' : Unit) (outcome outcome' : α × Memory) :
    Prop :=
  outcome.1 = outcome'.1 ∧ SameCopy tx w outcome.2 w' outcome'.2

/-- A call on a transaction depends on the memory only through what this has of the transaction. -/
theorem alike_run_viewOf {op : Operation} (about : op.transaction? = some tx)
    (h : SameCopy tx () memory () memory') :
    Program.Alike (viewOf self tx) (SameOutcome tx) () () (run self op memory)
      (run self op memory') := by
  cases op with
  | recover => cases about
  | handlePrepare message =>
    cases about
    exact common_viewOf.handlePrepare (alike_record?_viewOf h)
  | handleDecision tx d =>
    cases about
    exact common_viewOf.handleDecision (alike_record?_viewOf h)
  | queryVote tx =>
    cases about
    exact alike_queryVote (alike_record?_viewOf h)
  | queryState tx =>
    cases about
    exact alike_state? (alike_record?_viewOf h)
  | queryRecord tx =>
    cases about
    exact alike_record?_viewOf h
  | forget tx =>
    cases about
    exact alike_forget h

/-- What is told of what is told is the same. -/
theorem told_told (q : interface.Request) (a : interface.Answer q) :
    told self q (told self q a) = told self q a := by
  rcases q with q | q
  · cases q with
    | load _ =>
      cases a with
      | error _ => rfl
      | ok es => simp [told, Except.map]
    | _ => rfl
  · rfl

/-- What a host may answer, one may answer that has stored only what has been written for the
transaction, as far as it tells anything. -/
theorem answers_told {log log₁ : List Entry} {q : (role self).Request} {a : (role self).Answer q}
    (h : (role self).Answers log q a log₁) (reads : ReadsOnly tx q)
    (appends : ∀ e, q = .inl (.append e) → e.actor = self ∧ e.transaction = tx) :
    (role self).Answers (Log.history log self tx) q (told self q a) (Log.history log₁ self tx) := by
  rcases q with q | q
  · cases q with
    | now => exact congrArg (Log.history · self tx) h
    | scan _ => exact reads.elim
    | load tx' =>
      obtain rfl : tx' = tx := reads
      obtain ⟨rfl, found⟩ := h
      refine ⟨rfl, fun es read => ?_⟩
      cases a with
      | error _ => cases read
      | ok es' =>
        cases read
        rw [found es' rfl, Log.load_history]
        rfl
    | append e =>
      cases a with
      | error _ => exact congrArg (Log.history · self tx) h
      | ok _ =>
        obtain rfl : log₁ = log ++ [e] := h
        obtain ⟨own, about⟩ := appends e rfl
        exact Log.history_append_own log own about
  · exact congrArg (Log.history · self tx) h

/-! ## What a call has to itself -/

variable {op : Operation} {past past' : List (Moment (role self))} {call : ℕ}

/-- A call on a transaction has no other to itself. -/
theorem locks_subset (about : op.transaction? = some tx) : locks self past call op ⊆ {tx} := by
  cases op with
  | recover => cases about
  | handlePrepare message =>
    cases about
    exact subset_rfl
  | handleDecision tx d =>
    cases about
    exact subset_rfl
  | forget tx =>
    cases about
    exact subset_rfl
  | _ => exact Set.empty_subset _

/-- A call on a single transaction has it to itself, if at all, from its start to its end. -/
theorem locks_const (single : op.transaction? ≠ none) (past' : List (Moment (role self))) :
    locks self past call op = locks self past' call op := by
  cases op with
  | recover => exact absurd rfl single
  | _ => rfl

/-- A call on a single transaction has no other to itself. -/
theorem not_mem_locks (single : op.transaction? ≠ none) (other : op.transaction? ≠ some tx) :
    tx ∉ locks self past call op := by
  obtain ⟨tx', about⟩ := Option.ne_none_iff_exists'.1 single
  intro mem
  rw [Set.mem_singleton_iff.1 (locks_subset about mem)] at other
  exact other about

end AtomicCommit.Participant

import AtomicCommit.Proofs.Coordinator.Obedience
import AtomicCommit.Proofs.Coordinator.Rules

/-!
# What a coordinator keeps in memory

Until a coordinator restarts it keeps in memory every transaction that it has begun or taken up
again, until that is done. Whatever a call is answered, what was kept before an answer is kept when
the call rests or ends; and what a call has itself taken up, it keeps.

## Main definitions

* `Coordinator.Tidy`: what is in memory is unfinished.
* `Coordinator.Retains`: a transaction that is unfinished is in memory.
* `Coordinator.Concerns`: what a question is about.
* `Coordinator.retention`: the contract of a call that keeps a transaction.

## Main results

* `Coordinator.Keeping.meets_run`: every operation keeps what is kept, and a recovery that succeeds
  has everything kept.
-/

namespace AtomicCommit.Coordinator

/-- No copy in memory is done, and each stands under its own identifier. -/
def Tidy (memory : Memory) : Prop :=
  ∀ tx t, memory.get? tx = some t → t.id = tx ∧ t.state ≠ .done

variable (self : Coordinator) (tx : TransactionId)

/-- A transaction that is unfinished is in memory. -/
def Retains (log : List Entry) (memory : Memory) : Prop :=
  Log.isIncomplete log self.id tx = true → memory.contains tx = true

/-- A question is about a transaction that has begun. -/
def Concerns : self.role.Request → Prop
  | .inl (.append e) => e.transaction = tx ∧ ∀ members operations deadline,
      e.payload ≠ .begin members operations deadline
  | .inr (.requestVotes _ messages _) => ∃ pm ∈ messages, pm.2.transaction = tx
  | .inr (.awaitVote tx' _) => tx' = tx
  | .inr (.sendDecision message _ _) => message.transaction = tx
  | .inr (.awaitAcknowledgement message _) => message.transaction = tx
  | _ => False

/-- The world of a call that is to keep a transaction. -/
structure Watch where
  /-- The log. -/
  log : List Entry
  /-- The transaction was kept when the call was last answered, before what the answer has added to
  the log. -/
  kept : Prop

/-- The contract of a call that keeps a transaction if it was kept when the call was last answered,
or if the call is at work on it. While the call rests others keep it. -/
def retention : Contract (interface.sharing Memory) Watch where
  asks w q := w.kept ∨ self.Concerns tx q.1 → self.Retains tx w.log q.2
  answers w q a w' := ∃ log, (self.Retains tx w.log q.2 → self.Retains tx log a.2) ∧ Tidy a.2 ∧
    self.role.Answers log q.1 a.1 w'.log ∧ w'.kept = self.Retains tx log a.2

/-- A call has a tidy memory, and keeps the transaction if it was kept or is the call's own. -/
structure Keeping (c : Coordinator) (tx : TransactionId) (own : Prop) (w : Watch)
    (memory : Memory) : Prop where
  /-- The memory is tidy. -/
  tidy : Tidy memory
  /-- The transaction is kept. -/
  retains : w.kept ∨ own → c.Retains tx w.log memory

variable {self tx} {own : Prop} {w w' : Watch} {memory memory' : Memory} {t : Transaction}

theorem Keeping.mono {own' : Prop} (h : Keeping self tx own w memory) (weaken : own' → own) :
    Keeping self tx own' w memory :=
  ⟨h.tidy, fun kept => h.retains (kept.imp_right weaken)⟩

/-- After a question that stores nothing. -/
theorem Keeping.regains {q : self.role.Request} {a : self.role.Answer q × Memory}
    (h : Keeping self tx own w memory) (stores : self.role.stores q = false)
    (answers : (self.retention tx).answers w (q, memory) a w') :
    Keeping self tx own w' a.2 ∧ self.role.Answers w'.log q a.1 w'.log := by
  obtain ⟨log, keeps, tidy, answers, kept⟩ := answers
  obtain rfl := Discipline.answers_of_not_append stores log w'.log answers
  refine ⟨⟨tidy, ?_⟩, answers⟩
  rintro (was | mine)
  · rwa [kept] at was
  · exact keeps (h.retains (.inr mine))

theorem Keeping.asks {q : self.role.Request} (h : Keeping self tx own w memory)
    (concerns : self.Concerns tx q → own) : (self.retention tx).asks w (q, memory) :=
  fun kept => h.retains (kept.imp_right concerns)

/-- A question that stores nothing and is only about what is the call's own. -/
theorem Keeping.meets_ask {q : self.role.Request} {ε : Type}
    {ok : self.role.Answer q → Memory → Watch → Prop} {err : ε → Memory → Watch → Prop}
    (h : Keeping self tx own w memory) (stores : self.role.stores q = false)
    (concerns : self.Concerns tx q → own)
    (next : ∀ a memory' w', Keeping self tx own w' memory' → ok a memory' w') :
    (Action.ask q : Action interface Memory ε _).Meets (self.retention tx) ok err memory w := by
  rw [Action.meets_ask]
  exact ⟨h.asks concerns, fun a memory' w' answers =>
    next a memory' w' (h.regains stores answers).1⟩

/-- An entry is stored, and what it is about is put into memory. -/
theorem Retains.insert {e : Entry} {log : List Entry} (id : t.id = e.transaction)
    (h : tx ≠ t.id → self.Retains tx log memory) :
    self.Retains tx (log ++ [e]) (memory.insert t.id t) := by
  intro incomplete
  rw [SortedMap.contains_insert]
  by_cases same : tx = t.id
  · simp [same]
  · have unchanged : Log.history (log ++ [e]) self.id tx = Log.history log self.id tx :=
      Log.history_append_other log fun _ about => same (about.symm.trans id.symm)
    rw [Log.isIncomplete, Log.lastState?, unchanged] at incomplete
    simp [h same incomplete]

theorem Tidy.insert (h : Tidy memory) (unfinished : t.state ≠ .done) :
    Tidy (memory.insert t.id t) := by
  intro tx t' cached
  rw [SortedMap.get?_insert] at cached
  split at cached
  · rename_i same
    cases cached
    exact ⟨same.symm, unfinished⟩
  · exact h tx t' cached

theorem Tidy.erase_insert (h : Tidy memory) : Tidy ((memory.insert t.id t).erase t.id) := by
  intro tx t' cached
  rw [SortedMap.get?_erase, SortedMap.get?_insert] at cached
  by_cases same : tx = t.id
  · simp [same] at cached
  · rw [if_neg same, if_neg same] at cached
    exact h tx t' cached

/-- An entry of the call's own transaction. -/
theorem Keeping.meets_append {e : Entry} {ok : Unit → Memory → Watch → Prop}
    {err : LogError → Memory → Watch → Prop} (h : Keeping self tx own w memory)
    (concerns : self.Concerns tx (.inl (.append e)) → own)
    (stored : ∀ log memory' w', Tidy memory' → (w'.kept ∨ own → self.Retains tx log memory') →
      w'.log = log ++ [e] → ok () memory' w')
    (missed : ∀ failure memory' w', Keeping self tx own w' memory' → err failure memory' w') :
    (Host.append e : Action interface Memory LogError Unit).Meets (self.retention tx) ok err memory
      w := by
  rw [Host.meets_append]
  refine ⟨fun kept => h.retains (kept.imp_right concerns), ?_⟩
  rintro a memory' w' ⟨log, keeps, tidy, answers, kept⟩
  have retains : w'.kept ∨ own → self.Retains tx log memory' := by
    rintro (was | mine)
    · rwa [kept] at was
    · exact keeps (h.retains (.inr mine))
  constructor
  · rintro ⟨⟩ rfl
    exact stored log memory' w' tidy retains answers
  · rintro failure rfl
    obtain rfl : w'.log = log := answers
    exact missed failure memory' w' ⟨tidy, retains⟩

/-! ## Driving -/

variable {ok : Transaction → Memory → Watch → Prop} {err : CommitError → Memory → Watch → Prop}

/-- A step of a transaction keeps it: once it has advanced it is in memory as it is then. -/
theorem Keeping.meets_transition {next : CoordinatorState} {payload : Payload}
    (h : Keeping self tx own w memory) (concerns : t.id = tx → own)
    (advanced : ∀ memory' w', t.Advances next payload →
      (w'.kept ∨ own → self.Retains tx w'.log memory') → (next ≠ .done → Tidy memory') →
      Tidy (memory'.erase t.id) → (next = .done → Log.isIncomplete w'.log self.id t.id = false) →
      ok (t.record next payload) memory' w')
    (repeated : ∀ memory' w', t.Repeats next payload → Keeping self tx own w' memory' →
      ok t memory' w')
    (failed : ∀ failure memory' w', Keeping self tx own w' memory' → err failure memory' w') :
    (self.transition t next payload).Meets (self.retention tx) ok err memory w := by
  refine meets_transition_of (h.asks False.elim) ?_ ?_ ?_
  · intro time failure memory' w' answers _
    exact failed _ memory' w' (h.regains rfl answers).1
  · intro time memory' w' answers _ repeats
    exact repeated memory' w' repeats (h.regains rfl answers).1
  · intro time memory₁ w₁ e answers advances takes
    have keeping₁ := (h.regains rfl answers).1
    refine keeping₁.meets_append (fun about => concerns (takes.transaction.symm.trans about.1)) ?_
      fun failure => failed _
    intro log memory₂ w₂ tidy retains grown
    have id : (t.record next payload).id = t.id := by simp
    refine advanced _ w₂ advances ?_ ?_ ?_ ?_
    · intro kept
      rw [grown, ← id]
      exact Retains.insert (id.trans takes.transaction.symm) fun _ => retains kept
    · intro unfinished
      rw [← id]
      exact tidy.insert (by rwa [Transaction.state_record advances])
    · rw [← id]
      exact tidy.erase_insert
    · rintro rfl
      rw [grown, Log.isIncomplete, Log.lastState?,
        Log.history_append_own log takes.actor takes.transaction]
      simp [takes.state, CoordinatorState.toState, State.isTerminal]

/-- The steps that do not end a transaction. -/
theorem Keeping.meets_step {next : CoordinatorState} {payload : Payload}
    (h : Keeping self tx own w memory) (concerns : t.id = tx → own) (unfinished : t.state ≠ .done)
    (continues : next ≠ .done)
    (goesOn : ∀ t' memory' w', t'.id = t.id → t'.state ≠ .done → Keeping self tx own w' memory' →
      ok t' memory' w')
    (failed : ∀ failure memory' w', Keeping self tx own w' memory' → err failure memory' w') :
    (self.transition t next payload).Meets (self.retention tx) ok err memory w := by
  refine h.meets_transition concerns ?_ ?_ failed
  · intro memory' w' advances retains tidy _ _
    refine goesOn _ memory' w' (by simp) ?_ ⟨tidy continues, retains⟩
    rwa [Transaction.state_record advances]
  · intro memory' w' _ keeping
    exact goesOn t memory' w' rfl unfinished keeping

/-- A call that keeps a transaction is at work on one that is unfinished. -/
structure KeepsAt (c : Coordinator) (tx : TransactionId) (own : Prop) (id : TransactionId)
    (t : Transaction) (memory : Memory) (w : Watch) : Prop extends Keeping c tx own w memory where
  /-- The transaction that it is at work on. -/
  about : t.id = id
  /-- It is unfinished. -/
  unfinished : t.state ≠ .done

theorem Keeping.meets_collectVotes {outstanding : ℕ} {awaited : List ProcessId}
    (h : Keeping self tx own w memory) (concerns : t.id = tx → own) (unfinished : t.state ≠ .done)
    (collected : ∀ t' memory' w', t'.id = t.id → t'.state ≠ .done →
      Keeping self tx own w' memory' → ok t' memory' w')
    (failed : ∀ failure memory' w', Keeping self tx own w' memory' → err failure memory' w') :
    (self.collectVotes outstanding awaited t).Meets (self.retention tx) ok err memory w := by
  refine meets_collectVotes_of (I := fun _ => KeepsAt self tx own t.id) ?_ ?_ ⟨h, rfl, unfinished⟩
  · rintro - t' memory' w' ⟨keeping, id, unfinished⟩
    exact collected t' memory' w' id unfinished keeping
  · rintro awaited t' memory₁ w₁ ⟨keeping₁, id, unfinished⟩
    refine keeping₁.meets_ask rfl (id ▸ concerns) ?_
    intro reply? memory₂ w₂ keeping₂
    refine ⟨⟨keeping₂, id, unfinished⟩, fun reply vote _ _ => ?_⟩
    refine keeping₂.meets_step (id ▸ concerns) unfinished (by simp) ?_ failed
    exact fun t'' memory₃ w₃ id' unfinished keeping₃ => ⟨keeping₃, id'.trans id, unfinished⟩

theorem Keeping.meets_prepare {deadline : Timestamp} {resuming : Bool}
    (h : Keeping self tx own w memory) (concerns : t.id = tx → own) (unfinished : t.state ≠ .done)
    (prepared : ∀ t' memory' w', t'.id = t.id → t'.state ≠ .done →
      Keeping self tx own w' memory' → ok t' memory' w')
    (failed : ∀ failure memory' w', Keeping self tx own w' memory' → err failure memory' w') :
    (self.prepare t deadline resuming).Meets (self.retention tx) ok err memory w := by
  refine meets_prepare_of (fun _ => prepared t memory w rfl unfinished h) fun _ => ?_
  refine h.meets_ask rfl False.elim ?_
  intro now memory₁ w₁ keeping₁
  refine keeping₁.meets_ask rfl ?_ ?_
  · rintro ⟨pm, hpm, about⟩
    obtain ⟨p, -, rfl⟩ := List.mem_map.1 hpm
    exact concerns about
  · intro _ memory₂ w₂ keeping₂
    exact meets_within.2 ⟨fun _ => keeping₂.meets_collectVotes concerns unfinished prepared failed,
      fun _ => keeping₂.asks False.elim⟩

theorem Keeping.meets_decide {ok : Decision × Transaction → Memory → Watch → Prop}
    (h : Keeping self tx own w memory) (concerns : t.id = tx → own) (unfinished : t.state ≠ .done)
    (decided : ∀ d t' memory' w', t'.id = t.id → t'.state ≠ .done →
      Keeping self tx own w' memory' → ok (d, t') memory' w')
    (failed : ∀ failure memory' w', Keeping self tx own w' memory' → err failure memory' w') :
    (self.decide t).Meets (self.retention tx) ok err memory w := by
  rw [decide, Action.meets_bind]
  refine h.meets_step concerns unfinished (CoordinatorState.deciding_ne_done _) ?_ failed
  exact fun t' memory' w' => decided _ t' memory' w'

theorem Keeping.meets_collectAcknowledgements {message : DecisionMessage} {outstanding : ℕ}
    {awaited : List ProcessId} (h : Keeping self tx own w memory) (concerns : t.id = tx → own)
    (about : message.transaction = t.id) (unfinished : t.state ≠ .done)
    (count : awaited.length = outstanding)
    (collected : ∀ t' memory' w', t'.id = t.id → t'.state ≠ .done →
      Keeping self tx own w' memory' → ok t' memory' w') :
    (self.collectAcknowledgements message outstanding awaited t).Meets (self.retention tx) ok err
      memory w := by
  refine meets_collectAcknowledgements_of (I := fun _ => KeepsAt self tx own t.id) count ?_ ?_
    ⟨h, rfl, unfinished⟩
  · rintro t' memory' w' ⟨keeping, id, unfinished⟩
    exact collected t' memory' w' id unfinished keeping
  · rintro awaited t' memory₁ w₁ - ⟨keeping₁, id, unfinished⟩
    refine keeping₁.meets_ask rfl (fun about' => concerns (about.symm.trans about')) ?_
    intro reply? memory₂ w₂ keeping₂
    refine ⟨fun _ => collected t' memory₂ w₂ id unfinished keeping₂, fun reply _ =>
      ⟨fun _ _ => ⟨keeping₂, id, unfinished⟩, fun _ => ?_⟩⟩
    refine keeping₂.meets_step (id ▸ concerns) unfinished unfinished ?_ ?_
    · exact fun t'' memory₃ w₃ id' unfinished keeping₃ => ⟨keeping₃, id'.trans id, unfinished⟩
    · exact fun _ memory₃ w₃ keeping₃ => ⟨keeping₃, id, unfinished⟩

theorem Keeping.meets_deliverRounds {message : DecisionMessage} {rounds round : ℕ}
    (h : Keeping self tx own w memory) (concerns : t.id = tx → own)
    (about : message.transaction = t.id) (unfinished : t.state ≠ .done)
    (delivered : ∀ t' memory' w', t'.id = t.id → t'.state ≠ .done →
      Keeping self tx own w' memory' → ok t' memory' w') :
    (self.deliverRounds message rounds round t).Meets (self.retention tx) ok err memory w := by
  refine meets_deliverRounds_of (I := fun _ => KeepsAt self tx own t.id) ?_ ?_ ?_ ?_
    ⟨h, rfl, unfinished⟩
  · rintro t' memory' w' ⟨keeping, id, unfinished⟩
    exact delivered t' memory' w' id unfinished keeping
  · rintro - t' memory' w' ⟨keeping, id, unfinished⟩ -
    exact delivered t' memory' w' id unfinished keeping
  · rintro - t' time memory₁ w₁ ⟨keeping₁, id, unfinished⟩
    exact keeping₁.meets_ask rfl False.elim fun _ memory₂ w₂ keeping₂ =>
      ⟨keeping₂, id, unfinished⟩
  · rintro - t' memory₁ w₁ ⟨keeping₁, id, unfinished⟩ -
    refine keeping₁.meets_ask rfl (fun about' => concerns (about.symm.trans about')) ?_
    intro _ memory₂ w₂ keeping₂
    refine meets_within.2 ⟨fun _ => ?_, fun _ => keeping₂.asks False.elim⟩
    refine keeping₂.meets_collectAcknowledgements (id ▸ concerns) (about.trans id.symm) unfinished
      rfl ?_
    exact fun t'' memory₃ w₃ id' unfinished keeping₃ => ⟨keeping₃, id'.trans id, unfinished⟩

/-- A delivery that succeeds has finished the transaction. -/
theorem Keeping.meets_deliver {decision : Decision} {ok : Bool → Memory → Watch → Prop}
    (h : Keeping self tx own w memory) (concerns : t.id = tx → own) (unfinished : t.state ≠ .done)
    (missing : ∀ memory' w', Keeping self tx own w' memory' → ok false memory' w')
    (done : ∀ memory' w', (w'.kept ∨ own → self.Retains tx w'.log memory') →
      Tidy (memory'.erase t.id) → Log.isIncomplete w'.log self.id t.id = false →
      ok true memory' w') :
    (self.deliver t decision).Meets (self.retention tx) ok err memory w := by
  refine meets_deliver_of (h.meets_deliverRounds concerns rfl unfinished ?_)
  intro t' memory₁ w₁ id unfinished keeping₁
  refine ⟨fun _ => missing memory₁ w₁ keeping₁, fun _ =>
    ⟨fun ended => absurd ended unfinished, fun _ => ?_⟩⟩
  refine keeping₁.meets_transition (id ▸ concerns) ?_ ?_ ?_
  · intro memory' w' _ retains _ tidy complete
    exact done memory' w' retains (id ▸ tidy) (id ▸ complete rfl)
  · intro memory' w' repeats _
    exact absurd repeats Transaction.not_repeats_none
  · exact fun _ => missing

/-- A transaction that is dropped is finished. -/
theorem Keeping.meets_drive {deadline : Timestamp} {resuming : Bool}
    {ok : CommitOutcome → Memory → Watch → Prop} (h : Keeping self tx own w memory)
    (concerns : t.id = tx → own) (unfinished : t.state ≠ .done)
    (driven : ∀ outcome memory' w', Keeping self tx own w' memory' → ok outcome memory' w')
    (failed : ∀ failure memory' w', Keeping self tx own w' memory' → err failure memory' w') :
    (self.drive t deadline resuming).Meets (self.retention tx) ok err memory w := by
  refine meets_drive_of (I := fun _ => KeepsAt self tx own t.id) ?_ ?_ ?_
  · exact fun _ _ => ⟨h, rfl, unfinished⟩
  · intro _
    refine h.meets_prepare concerns unfinished ?_ failed
    intro t' memory₁ w₁ id unfinished keeping₁
    refine keeping₁.meets_decide (id ▸ concerns) unfinished ?_ failed
    exact fun _ t'' memory₂ w₂ id' unfinished keeping₂ => ⟨keeping₂, id'.trans id, unfinished⟩
  · rintro d t' memory₁ w₁ ⟨keeping₁, id, unfinished⟩
    refine keeping₁.meets_deliver (id ▸ concerns) unfinished ?_ ?_
    · exact fun memory' w' keeping => driven _ memory' w' keeping
    · intro memory' w' retains tidy complete
      refine driven _ _ w' ⟨tidy, fun kept incomplete => ?_⟩
      have different : tx ≠ t'.id := by
        rintro rfl
        simp [complete] at incomplete
      rw [if_pos rfl, SortedMap.contains, SortedMap.get?_erase, if_neg different]
      exact retains kept incomplete

/-! ## Operations -/

theorem Keeping.meets_begin {participants : SortedSet ProcessId} {operations : Assignment}
    {timeout : Duration} {ok : CommitOutcome → Memory → Watch → Prop}
    (h : Keeping self tx False w memory)
    (begun : ∀ outcome memory' w', Keeping self tx False w' memory' → ok outcome memory' w')
    (failed : ∀ failure memory' w', Keeping self tx False w' memory' → err failure memory' w') :
    (self.begin participants operations timeout).Meets (self.retention tx) ok err memory w := by
  refine meets_begin_of (fun _ _ => failed _ _ _ h) fun _ => ?_
  refine h.meets_ask rfl False.elim ?_
  intro now memory₁ w₁ keeping₁
  refine ⟨fun _ => failed _ _ _ keeping₁, fun deadline _ => ?_⟩
  refine keeping₁.meets_ask rfl False.elim ?_
  rintro _ memory₂ w₂ keeping₂ t e rfl - - opens
  refine keeping₂.meets_append ?_ ?_ fun failure memory' w' keeping' => failed _ _ _ keeping'
  · rintro ⟨-, other⟩
    obtain ⟨members, operations', deadline', payload⟩ := opens.payload
    exact other members operations' deadline' payload
  · intro log memory₃ w₃ tidy retains grown
    have keeping₃ : Keeping self tx (tx = t.id) w₃ (memory₃.insert t.id t) := by
      refine ⟨tidy.insert (by simp [opens.init]), fun kept => ?_⟩
      rw [grown]
      refine Retains.insert opens.transaction.symm fun different => ?_
      exact retains (.inl (kept.resolve_right different))
    refine keeping₃.meets_step Eq.symm (by simp [opens.init]) (by simp) ?_ ?_
    · intro t' memory₄ w₄ id unfinished keeping₄
      refine keeping₄.meets_drive (fun same => same.symm.trans id) unfinished ?_ ?_
      · exact fun outcome memory' w' keeping' => begun _ _ _ (keeping'.mono False.elim)
      · exact fun failure memory' w' keeping' => failed _ _ _ (keeping'.mono False.elim)
    · exact fun failure memory' w' keeping' => failed _ _ _ (keeping'.mono False.elim)

theorem Keeping.meets_resume {ok : CommitOutcome → Memory → Watch → Prop}
    (h : Keeping self tx own w memory) (concerns : t.id = tx → own) (unfinished : t.state ≠ .done)
    (resumed : ∀ outcome memory' w', Keeping self tx own w' memory' → ok outcome memory' w')
    (failed : ∀ failure memory' w', Keeping self tx own w' memory' → err failure memory' w') :
    (self.resume t).Meets (self.retention tx) ok err memory w := by
  refine meets_resume_of (I := KeepsAt self tx own t.id) ?_ ?_ ?_
  · exact fun _ => ⟨h, rfl, unfinished⟩
  · intro _
    refine h.meets_step concerns unfinished (by simp) ?_ failed
    exact fun t' memory' w' id unfinished keeping => ⟨keeping, id, unfinished⟩
  · rintro t' memory₁ w₁ ⟨keeping₁, id, unfinished⟩
    rw [meets_deadlineAfter]
    refine keeping₁.meets_ask rfl False.elim ?_
    intro now memory₂ w₂ keeping₂
    refine ⟨fun deadline _ => ?_, fun _ => failed _ memory₂ w₂ keeping₂⟩
    exact keeping₂.meets_drive (id ▸ concerns) unfinished resumed failed

/-- A recovery keeps what it has taken up. -/
theorem Keeping.meets_finish {report : RecoveryReport}
    {ok : RecoveryReport → Memory → Watch → Prop} {err : RecoveryError → Memory → Watch → Prop}
    (h : Keeping self tx own w memory) (unfinished : t.state ≠ .done)
    (finished : ∀ report memory' w', Keeping self tx (own ∨ tx = t.id) w' memory' →
      ok report memory' w')
    (failed : ∀ failure memory' w', Keeping self tx own w' memory' → err failure memory' w') :
    (self.finish report t).Meets (self.retention tx) ok err memory w := by
  have resumes : ∀ t' memory', t'.id = t.id → t'.state ≠ .done →
      Keeping self tx (own ∨ tx = t.id) w memory' →
      (do
        let outcome ← (self.resume t').mapError .ofCommit
        return report.add t.id t.decision.isSome outcome.fullyAcknowledged :
          RecoveryStep RecoveryReport).Meets (self.retention tx) ok err memory' w := by
    intro t' memory' id unfinished keeping
    rw [Action.meets_bind, Action.meets_mapError]
    refine keeping.meets_resume (fun same => .inr (same.symm.trans id)) unfinished ?_ ?_
    · exact fun outcome memory'' w'' keeping' => finished _ memory'' w'' keeping'
    · exact fun failure memory'' w'' keeping' => failed _ memory'' w'' (keeping'.mono .inl)
  rw [finish, restore, Action.meets_bind, Action.meets_bind, Action.meets_get]
  cases cached : memory.get? t.id with
  | some t' =>
    obtain ⟨id, unfinished'⟩ := h.tidy t.id t' cached
    refine resumes t' memory id unfinished' ⟨h.tidy, ?_⟩
    rintro (kept | mine | rfl)
    · exact h.retains (.inl kept)
    · exact h.retains (.inr mine)
    · exact fun _ => by simp [SortedMap.contains, cached]
  | none =>
    refine resumes t (memory.insert t.id t) rfl unfinished ⟨h.tidy.insert unfinished, ?_⟩
    intro kept incomplete
    rw [SortedMap.contains_insert]
    by_cases same : tx = t.id
    · simp [same]
    · have kept := kept.imp_right (Or.resolve_right · same)
      simp [h.retains kept incomplete]

theorem Keeping.meets_finishAll {transactions : List Transaction} {report : RecoveryReport}
    {ok : RecoveryReport → Memory → Watch → Prop} {err : RecoveryError → Memory → Watch → Prop}
    (h : Keeping self tx own w memory) (unfinished : ∀ t ∈ transactions, t.state ≠ .done)
    (finished : ∀ report memory' w', Keeping self tx (own ∨ ∃ t ∈ transactions, tx = t.id) w'
      memory' → ok report memory' w')
    (failed : ∀ failure memory' w', Keeping self tx own w' memory' → err failure memory' w') :
    (transactions.foldlM self.finish report).Meets (self.retention tx) ok err memory w := by
  induction transactions generalizing own report memory w with
  | nil => exact finished report memory w (h.mono (by simp))
  | cons t rest ih =>
    rw [List.foldlM_cons, Action.meets_bind]
    refine h.meets_finish (unfinished t (.head _)) ?_ failed
    intro report memory' w' keeping
    refine ih keeping (fun t' ht' => unfinished t' (.tail _ ht')) ?_ ?_
    · intro report memory'' w'' keeping'
      refine finished report memory'' w'' (keeping'.mono ?_)
      simp [or_assoc]
    · exact fun failure memory'' w'' keeping' => failed _ memory'' w'' (keeping'.mono .inl)

/-- A recovery that succeeds has every transaction kept. -/
theorem Keeping.meets_recover {ok : RecoveryReport → Memory → Watch → Prop}
    {err : RecoveryError → Memory → Watch → Prop} (h : Keeping self tx False w memory)
    (recovered : ∀ report memory' w', Keeping self tx True w' memory' → ok report memory' w')
    (failed : ∀ failure memory' w', Keeping self tx False w' memory' → err failure memory' w') :
    self.recover.Meets (self.retention tx) ok err memory w := by
  rw [recover, Action.meets_bind, Action.meets_mapError, Host.meets_scan]
  refine ⟨h.asks False.elim, ?_⟩
  intro found memory' w' answers
  obtain ⟨keeping, -, holds⟩ := h.regains rfl answers
  refine ⟨?_, fun failure _ => failed _ _ _ keeping⟩
  rintro entries rfl
  obtain rfl : entries = Log.scanIncomplete w'.log self.id := holds entries rfl
  rw [Action.meets_bind, Action.meets_ofExcept]
  refine ⟨fun transactions replayed => ?_, fun failure _ => failed _ _ _ keeping⟩
  have listed : Log.isIncomplete w'.log self.id tx = true → ∃ t ∈ transactions, tx = t.id := by
    intro incomplete
    have mem := Log.mem_transactions_scan_iff.2 incomplete
    rw [ids_of_scan replayed, List.mem_map] at mem
    obtain ⟨t, ht, same⟩ := mem
    exact ⟨t, ht, same.symm⟩
  -- what is not listed is kept because it is finished or unknown
  have keeping' : Keeping self tx (¬∃ t ∈ transactions, tx = t.id) w' memory' := by
    refine ⟨keeping.tidy, ?_⟩
    rintro (was | unlisted)
    · exact keeping.retains (.inl was)
    · exact fun incomplete => absurd (listed incomplete) unlisted
  refine keeping'.meets_finishAll (pending_of_scan replayed).unfinished ?_ ?_
  · exact fun report memory'' w'' h => recovered report _ _ (h.mono fun _ => (em _).symm)
  · exact fun failure memory'' w'' h => failed failure _ _ (h.mono False.elim)

theorem Keeping.meets_queryState {ok : Option Transaction → Memory → Watch → Prop}
    (h : Keeping self tx False w memory) {tx' : TransactionId}
    (answered : ∀ answer memory' w', Keeping self tx False w' memory' → ok answer memory' w')
    (failed : ∀ failure memory' w', Keeping self tx False w' memory' → err failure memory' w') :
    (self.queryState tx').Meets (self.retention tx) ok err memory w := by
  rw [queryState, Action.meets_bind, Action.meets_get]
  cases memory.get? tx' with
  | some t => exact answered _ memory w h
  | none =>
    simp only [Action.meets_bind, Action.meets_mapError, Host.history, Host.meets_load]
    refine ⟨h.asks False.elim, ?_⟩
    intro found memory' w' answers
    have keeping := (h.regains rfl answers).1
    refine ⟨fun entries _ => ?_, fun failure _ => failed _ _ _ keeping⟩
    rw [Action.meets_pure]
    split
    · exact answered _ _ _ keeping
    · rw [Action.meets_map, Action.meets_ofExcept]
      exact ⟨fun t _ => answered _ _ _ keeping, fun failure _ => failed _ _ _ keeping⟩

/-- Nothing finished is in memory to be dropped. -/
theorem Keeping.meets_forget {ok : Bool → Memory → Watch → Prop}
    (h : Keeping self tx False w memory) {tx' : TransactionId}
    (absent : ok false memory w) (failed : ∀ failure, err failure memory w) :
    (forget tx' : Step Bool).Meets (self.retention tx) ok err memory w := by
  rw [forget, Action.meets_bind, Action.meets_get]
  cases cached : memory.get? tx' with
  | none => exact absent
  | some t =>
    dsimp only
    rw [if_neg (h.tidy tx' t cached).2]
    exact failed _

/-- A recovery has succeeded. -/
def Recovers : (op : Operation) → op.Result → Prop
  | .recover, .ok _ => True
  | _, _ => False

/-- Whatever an operation is answered, it keeps what was kept and what it works on, and has
everything kept once it has recovered. -/
theorem Keeping.meets_run {op : Operation} (h : Keeping self tx False w memory) :
    (self.run op memory).Meets (self.retention tx)
      (fun outcome w => w.kept ∨ Recovers op outcome.1 → self.Retains tx w.log outcome.2) w := by
  have spared : ∀ {memory : Memory} {w : Watch} {P : Prop}, Keeping self tx False w memory → ¬P →
      w.kept ∨ P → self.Retains tx w.log memory := fun keeping no kept =>
    keeping.retains (kept.imp_right no)
  cases op with
  | begin participants operations timeout =>
    refine Action.Meets.program (h.meets_begin ?_ ?_)
    · exact fun _ _ _ keeping => spared keeping False.elim
    · exact fun _ _ _ keeping => spared keeping False.elim
  | recover =>
    refine Action.Meets.program (h.meets_recover ?_ ?_)
    · exact fun _ _ _ keeping kept => keeping.retains (kept.imp_right fun _ => trivial)
    · exact fun _ _ _ keeping => spared keeping False.elim
  | queryState tx' =>
    refine Action.Meets.program (h.meets_queryState ?_ ?_)
    · exact fun _ _ _ keeping => spared keeping False.elim
    · exact fun _ _ _ keeping => spared keeping False.elim
  | queryDecision tx' =>
    refine Action.Meets.program ?_
    rw [queryDecision, Action.meets_bind]
    refine h.meets_queryState ?_ fun _ _ _ keeping => spared keeping False.elim
    intro answer memory' w' keeping
    cases answer <;> exact spared keeping False.elim
  | forget tx' =>
    refine Action.Meets.program (h.meets_forget ?_ ?_)
    · exact spared h False.elim
    · exact fun _ => spared h False.elim

end AtomicCommit.Coordinator

import AtomicCommit.Proofs.Coordinator.Transition
import AtomicCommit.Proofs.Transaction.Course

/-!
# The effect of an entry

A coordinator checks an entry, appends it, and only then applies it, so the check has to foresee
what applying will do: were an entry refused after it is in the log, the log would be ahead of
memory. `check` and `apply` agree on every entry and every transaction.

An entry takes effect once. What it records is recorded from then on, and no entry is new that
records something recorded: each of the five ways in which an entry can be new is closed by an
earlier entry with the same data (`Transaction.Summarizes.not_apply_new`).

## Main definitions

* `Coordinator.StepsTo`, `Coordinator.StepFails`: what a step of a transaction has come to, or why
  it has failed.

## Main results

* `Coordinator.entries_take_effect_once`: `check` foresees `apply`, a step leaves the log and the
  memory at the same transaction, and an entry of a history has no effect on what it replays to.
-/

namespace AtomicCommit

namespace Transaction

variable {t t' : Transaction} {e : Entry}

/-! ## What is foreseen -/

/-- `apply` does with an entry what `check` has said of it. -/
theorem check_foresees_apply (t : Transaction) (e : Entry) :
    (∃ failure, t.check e = .error failure ∧ t.apply e = .error failure) ∨
    (t.check e = .ok false ∧ t.apply e = .ok (false, t)) ∨
    ∃ t', t.check e = .ok true ∧ t.apply e = .ok (true, t') := by
  cases checked : t.check e with
  | error failure => exact .inl ⟨failure, rfl, by rw [apply, checked]; rfl⟩
  | ok new =>
    cases new with
    | false => exact .inr (.inl ⟨rfl, by rw [apply, checked]; rfl⟩)
    | true =>
      obtain ⟨next, about, previous, state, judged⟩ := check_eq_ok_iff.1 checked
      have advances := checkPayload_eq_new_iff.1 judged
      exact .inr (.inr ⟨_, rfl, apply_eq_new_iff.2 ⟨next, about, previous, state, advances, rfl⟩⟩)

theorem check_eq_error_iff_apply {failure : StateError} :
    t.check e = .error failure ↔ t.apply e = .error failure := by
  rcases check_foresees_apply t e with ⟨_, checked, applied⟩ | ⟨checked, applied⟩ |
    ⟨_, checked, applied⟩ <;> simp [checked, applied]

theorem check_eq_repeated_iff_apply : t.check e = .ok false ↔ t.apply e = .ok (false, t) := by
  rcases check_foresees_apply t e with ⟨_, checked, applied⟩ | ⟨checked, applied⟩ |
    ⟨_, checked, applied⟩ <;> simp [checked, applied]

theorem check_eq_new_iff_apply : t.check e = .ok true ↔ ∃ t', t.apply e = .ok (true, t') := by
  rcases check_foresees_apply t e with ⟨_, checked, applied⟩ | ⟨checked, applied⟩ |
    ⟨_, checked, applied⟩ <;> simp [checked, applied]

/-! ## What takes effect once -/

/-- An entry of the history is not new: it has recorded what would make it so. -/
theorem Summarizes.not_apply_new {entries : List Entry} (s : t.Summarizes entries)
    (member : e ∈ entries) : t.apply e ≠ .ok (true, t') := by
  intro applied
  obtain ⟨next, -, previous, state, advances, -⟩ := apply_eq_new_iff.1 applied
  have noted := List.mem_map_of_mem (f := Entry.payload) member
  generalize carries : e.payload = payload at advances noted
  cases advances with
  | start init =>
    rw [init] at previous
    exact s.started.2 ⟨e, member, previous, state, carries⟩ init
  | @vote p v _ _ new =>
    rw [(s.votes p v).2 noted] at new
    cases new
  | @decision d _ new _ =>
    rw [(s.decision d).2 noted] at new
    cases new
  | @acknowledged p _ _ _ new =>
    rw [(s.acknowledged p).2 noted] at new
    cases new
  | finish unfinished _ =>
    have done : t.state = .done := s.done.2 ⟨e, member, state⟩
    simp [done] at unfinished

/-- An entry of the history is refused or repeats what it has recorded. -/
theorem Summarizes.apply_of_mem {entries : List Entry} (s : t.Summarizes entries)
    (member : e ∈ entries) :
    (∃ failure, t.apply e = .error failure) ∨ t.apply e = .ok (false, t) := by
  rcases check_foresees_apply t e with ⟨failure, -, refused⟩ | ⟨-, repeated⟩ | ⟨t', -, applied⟩
  · exact .inl ⟨failure, refused⟩
  · exact .inr repeated
  · exact absurd applied (s.not_apply_new member)

end Transaction

namespace Coordinator

open Transaction (replay)

/-! ## In a step of a coordinator -/

/-- What a step of a transaction has come to, and what was said in it: the time, and whether its
entry has been stored. -/
inductive StepsTo (c : Coordinator) (t : Transaction) (next : CoordinatorState) (payload : Payload)
    (memory : Memory) : List (Exchange c.role) → Transaction → Prop where
  /-- The entry repeats what is recorded, and is not stored. -/
  | repeated {time : Timestamp} (judged : t.check (c.entry t next payload time) = .ok false) :
    StepsTo c t next payload memory [⟨.inl .now, time⟩] t
  /-- The entry is new and stored, and memory holds what it leads to. -/
  | new {time : Timestamp} {t' : Transaction}
    (applied : t.apply (c.entry t next payload time) = .ok (true, t'))
    (cached : memory.get? t.id = some t') :
    StepsTo c t next payload memory (stepping time (c.entry t next payload time) (.ok ())) t'

/-- Why a step of a transaction has failed, and what was said in it. -/
inductive StepFails (c : Coordinator) (t : Transaction) (next : CoordinatorState)
    (payload : Payload) : List (Exchange c.role) → CommitError → Prop where
  /-- The entry is refused, and is not stored. -/
  | refused {time : Timestamp} {failure : StateError}
    (judged : t.check (c.entry t next payload time) = .error failure) :
    StepFails c t next payload [⟨.inl .now, time⟩] (.invalidState failure)
  /-- The entry is new, and the log does not store it. -/
  | unstored {time : Timestamp} {failure : LogError}
    (judged : t.check (c.entry t next payload time) = .ok true) :
    StepFails c t next payload (stepping time (c.entry t next payload time) (.error failure))
      (.log failure)

variable {self : Coordinator} {t t' : Transaction} {next : CoordinatorState} {payload : Payload}
  {memory : Memory} {said : List (Exchange self.role)}

/-- The log after a step replays to what the step has come to. -/
theorem StepsTo.replay {entries : List Entry} (h : self.StepsTo t next payload memory said t')
    (replayed : replay entries = .ok t) : replay (entries ++ stored said) = .ok t' := by
  cases h with
  | repeated =>
    rw [show stored [_] = [] from rfl, List.append_nil]
    exact replayed
  | new applied _ =>
    rw [stored_stepping_ok]
    exact Transaction.replay_append_of_apply replayed applied

/-- A step that fails has stored nothing. -/
theorem StepFails.stored {failure : CommitError} (h : self.StepFails t next payload said failure) :
    stored said = [] := by
  cases h <;> rfl

/-- When the entry of a step is in the log nothing is left that can fail. -/
theorem meets_transition_stepping (self : Coordinator) (t : Transaction) (next : CoordinatorState)
    (payload : Payload) (memory : Memory) :
    (self.transition t next payload).Meets
      (self.role.hearing (fun _ _ => True) fun _ _ _ => True)
      (fun t' memory said => self.StepsTo t next payload memory said t')
      (fun failure _ said => self.StepFails t next payload said failure) memory [] := by
  refine meets_transition_entry trivial ?_ ?_ ?_
  · rintro time failure memory' w' ⟨-, rfl⟩ judged
    exact .refused judged
  · rintro time memory' w' ⟨-, rfl⟩ judged
    exact .repeated judged
  · rintro time memory' w' ⟨-, rfl⟩ advances
    have new : t.check (self.entry t next payload time) = .ok true :=
      check_entry.2 (Transaction.checkPayload_eq_new_iff.2 advances)
    refine meets_append_hearing trivial (fun memory'' _ => ?_) fun _ _ _ => .unstored new
    exact .new (apply_entry advances) (SortedMap.get?_insert_self _ _ _)

/-- **Entries take effect once, and as foreseen.** Of a transaction that a history replays to,
whatever the entry: `check` refuses it exactly if `apply` does, and in the same words; it says that
the entry repeats something exactly if `apply` leaves the transaction as it is; and it says that the
entry is new exactly if `apply` takes it. So in a step of a coordinator, whatever it is told, the
entry with the data and the next state is stored exactly if it is new and the log takes it, nothing
fails once it is in the log, and the log replays to what memory holds. No entry of the history
changes the transaction again. -/
theorem entries_take_effect_once {entries : List Entry} {t : Transaction}
    (h : replay entries = .ok t) :
    (∀ e failure, t.check e = .error failure ↔ t.apply e = .error failure) ∧
    (∀ e, t.check e = .ok false ↔ t.apply e = .ok (false, t)) ∧
    (∀ e, t.check e = .ok true ↔ ∃ t', t.apply e = .ok (true, t')) ∧
    (∀ (self : Coordinator) (next : CoordinatorState) (payload : Payload) (memory : Memory),
      (self.transition t next payload).Meets
        (self.role.hearing (fun _ _ => True) fun _ _ _ => True)
        (fun t' memory said => self.StepsTo t next payload memory said t' ∧
          replay (entries ++ stored said) = .ok t')
        (fun failure _ said => self.StepFails t next payload said failure ∧ stored said = [])
        memory []) ∧
    ∀ e ∈ entries, (∃ failure, t.apply e = .error failure) ∨ t.apply e = .ok (false, t) := by
  refine ⟨fun _ _ => Transaction.check_eq_error_iff_apply,
    fun _ => Transaction.check_eq_repeated_iff_apply, fun _ => Transaction.check_eq_new_iff_apply,
    ?_, fun e => (Transaction.summarizes_of_replay h).apply_of_mem⟩
  intro self next payload memory
  refine (meets_transition_stepping self t next payload memory).mono ?_ ?_
  · exact fun t' memory said steps => ⟨steps, steps.replay h⟩
  · exact fun failure memory said fails => ⟨fails, fails.stored⟩

/-- The vote that comes first in the delivered commit is repeated while the other is awaited. The
other is new then, and in the end neither has an effect any more. -/
theorem entries_take_effect_once_delivered :
    let first := Transaction.delivered.get ⟨2, by decide⟩
    let second := Transaction.delivered.get ⟨3, by decide⟩
    ∃ t t' t'' : Transaction, replay (Transaction.delivered.take 3) = .ok t ∧
      replay Transaction.delivered = .ok t'' ∧ t.apply first = .ok (false, t) ∧
      t.apply second = .ok (true, t') ∧
      ∀ e ∈ [first, second], ∃ failure, t''.apply e = .error failure := by
  intro first second
  obtain ⟨t, replayed, judged⟩ : ∃ t, replay (Transaction.delivered.take 3) = .ok t ∧
      (t.check first, t.check second) = (.ok false, .ok true) :=
    Transaction.exists_of_map_replay (f := fun t => (t.check first, t.check second))
      (by decide +kernel)
  obtain ⟨repeated, new⟩ := Prod.mk.inj judged
  obtain ⟨t'', ended, done⟩ : ∃ t'', replay Transaction.delivered = .ok t'' ∧ t''.state = .done :=
    Transaction.exists_of_map_replay (by decide +kernel)
  obtain ⟨-, unchanged, changed, -, -⟩ := entries_take_effect_once replayed
  obtain ⟨-, unchanged', -, -, once⟩ := entries_take_effect_once ended
  obtain ⟨t', applied⟩ := (changed second).1 new
  refine ⟨t, t', t'', replayed, ended, (unchanged first).1 repeated, applied, fun e he => ?_⟩
  have member : e ∈ Transaction.delivered := by
    rcases List.mem_pair.1 he with rfl | rfl <;> exact List.get_mem _ _
  refine (once e member).resolve_right fun repeated => ?_
  -- a vote starts from the collection of votes, which is over
  obtain ⟨-, -, previous, -⟩ := Transaction.check_eq_ok_iff.1 ((unchanged' e).2 repeated)
  rw [done] at previous
  rcases List.mem_pair.1 he with rfl | rfl <;> cases previous

end Coordinator

end AtomicCommit

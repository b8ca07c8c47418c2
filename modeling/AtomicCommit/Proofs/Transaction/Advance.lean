import AtomicCommit.Proofs.Sorted.Lookup
import AtomicCommit.Transaction.Basic

/-!
# What a new entry does to a transaction

`check` and `apply` work through every payload in every state. `Advances` lists the five ways in
which an entry can be new, and `apply_eq_new_iff` says that `apply` takes exactly these; later
proofs argue by these five cases and open neither function again.

## Main definitions

* `Transaction.Advances`: the entries that are new to a transaction.
* `Transaction.WellFormed`: what holds of every transaction that entries have led to.
-/

namespace AtomicCommit

theorem CoordinatorState.ofState_eq_ok_iff {s : State} {next : CoordinatorState} :
    CoordinatorState.ofState s = .ok next ↔ s = next.toState := by
  cases s <;> cases next <;> simp [ofState, State.coordinator?, toState]

theorem CoordinatorState.toState_injective {a b : CoordinatorState} (h : a.toState = b.toState) :
    a = b := by
  cases a <;> cases b <;> simp_all [toState]

namespace Transaction

/-- The data of an entry that leads to `next` is new to the transaction and belongs there. -/
inductive Advances (t : Transaction) : (next : CoordinatorState) → Payload → Prop where
  /-- The collection of votes starts. -/
  | start (h : t.state = .init) : Advances t .preparing .none
  /-- A first vote of a participant. -/
  | vote {p : ProcessId} (v : Vote) (h : t.state = .preparing)
      (member : t.participants.contains p = true) (new : t.votes.get? p = none) :
      Advances t .preparing (.vote p v)
  /-- The decision; a commit only with every vote. -/
  | decision {d : Decision} (h : t.state = .preparing) (new : t.decision = none)
      (unanimous : d = .commit → t.tally = some .commit) :
      Advances t (.deciding d) (.decision d)
  /-- A first acknowledgement of a participant. -/
  | acknowledged {p : ProcessId} (decided : t.decision ≠ none) (h : t.state ≠ .done)
      (member : t.participants.contains p = true) (new : t.acknowledged.contains p = false) :
      Advances t t.state (.acknowledged p)
  /-- Every participant has acknowledged. -/
  | finish (h : t.state = .committing ∨ t.state = .aborting)
      (all : t.acknowledged.size = t.participants.size) : Advances t .done .none

theorem requireParticipant_bind_eq_ok_iff {t : Transaction} {p : ProcessId} {α : Type}
    {f : Unit → Except StateError α} {a : α} :
    (t.requireParticipant p >>= f) = .ok a ↔ t.participants.contains p = true ∧ f () = .ok a := by
  unfold requireParticipant
  split <;> simp_all [bind, Except.bind]

/-- A payload counts as new exactly in the five cases. -/
theorem checkPayload_eq_new_iff {t : Transaction} {next : CoordinatorState} {payload : Payload} :
    t.checkPayload next payload = .ok true ↔ t.Advances next payload := by
  constructor
  · intro h
    cases payload with
    | none =>
      simp only [checkPayload] at h
      split at h
      · simp at h
      · rename_i move
        split at h
        · simp at h
        · rename_i count
          cases hs : t.state <;> cases next <;> simp_all [CoordinatorState.canMoveTo]
          · exact .start hs
          · exact .finish (.inl hs) count
          · exact .finish (.inr hs) count
    | vote p v =>
      simp only [checkPayload] at h
      split at h
      · simp at h
      · rename_i phase
        push Not at phase
        obtain ⟨member, h⟩ := requireParticipant_bind_eq_ok_iff.1 h
        cases hv : t.votes.get? p with
        | none => rw [phase.2, phase.1]; exact .vote v phase.1 member hv
        | some recorded =>
          rw [hv] at h
          simp only at h
          split at h <;> simp [pure, Except.pure, throw, throwThe, MonadExceptOf.throw] at h
    | decision d =>
      simp only [checkPayload] at h
      split at h
      · simp at h
      · rename_i undecided
        split at h
        · simp at h
        · rename_i move
          split at h
          · simp at h
          · rename_i unanimous
            push Not at unanimous
            simp only [Bool.not_eq_true, not_or, not_not] at move
            rw [move.2]
            refine .decision ?_ undecided unanimous
            obtain ⟨move, rfl⟩ := move
            cases hs : t.state <;> cases d <;>
              simp_all [CoordinatorState.canMoveTo, CoordinatorState.deciding]
    | acknowledged p =>
      simp only [checkPayload] at h
      split at h
      · simp at h
      · rename_i phase
        simp only [not_or, Option.isNone_iff_eq_none, CoordinatorState.isTerminal,
          decide_eq_true_eq, not_not] at phase
        obtain ⟨member, h⟩ := requireParticipant_bind_eq_ok_iff.1 h
        rw [phase.2.2]
        exact .acknowledged phase.1 phase.2.1 member (by simpa [pure, Except.pure] using h)
    | begin _ _ _ => simp [checkPayload] at h
    | prepared _ _ => simp [checkPayload] at h
    | voted _ _ => simp [checkPayload] at h
    | resolved _ => simp [checkPayload] at h
  · intro h
    cases h with
    | start h => simp [checkPayload, h, CoordinatorState.canMoveTo]
    | vote v h member new =>
      simp [checkPayload, h, requireParticipant, member, new, bind, Except.bind, pure, Except.pure]
    | @decision d h new unanimous =>
      cases d <;>
        simp_all [checkPayload, CoordinatorState.canMoveTo, CoordinatorState.deciding]
    | acknowledged decided h member new =>
      simp [checkPayload, decided, h, requireParticipant, member, new, CoordinatorState.isTerminal,
        bind, Except.bind, pure, Except.pure]
    | finish h all =>
      rcases h with h | h <;> simp [checkPayload, h, CoordinatorState.canMoveTo, all]

/-- The data of an entry repeats a vote or an acknowledgement that is recorded. -/
inductive Repeats (t : Transaction) : (next : CoordinatorState) → Payload → Prop where
  /-- A participant votes as it has voted. -/
  | vote {p : ProcessId} {v : Vote} (recorded : t.votes.get? p = some v) :
      Repeats t t.state (.vote p v)
  /-- A participant acknowledges again. -/
  | acknowledged {p : ProcessId} (recorded : t.acknowledged.contains p = true) :
      Repeats t t.state (.acknowledged p)

theorem not_repeats_none {t : Transaction} {next : CoordinatorState} :
    ¬t.Repeats next .none := by
  rintro ⟨⟩

theorem not_repeats_decision {t : Transaction} {next : CoordinatorState} {d : Decision} :
    ¬t.Repeats next (.decision d) := by
  rintro ⟨⟩

/-- What is new repeats nothing. -/
theorem Advances.not_repeats {t : Transaction} {next : CoordinatorState} {payload : Payload}
    (h : t.Advances next payload) : ¬t.Repeats next payload := by
  rintro (recorded | recorded) <;> generalize t.state = next at h <;> cases h <;> simp_all

/-- A payload counts as repeated in these two cases only. -/
theorem repeats_of_checkPayload {t : Transaction} {next : CoordinatorState} {payload : Payload}
    (h : t.checkPayload next payload = .ok false) : t.Repeats next payload := by
  cases payload with
  | vote p v =>
    simp only [checkPayload] at h
    split at h
    · simp at h
    · rename_i phase
      push Not at phase
      obtain ⟨-, h⟩ := requireParticipant_bind_eq_ok_iff.1 h
      rw [phase.2]
      cases hv : t.votes.get? p with
      | none => simp [hv, pure, Except.pure] at h
      | some recorded =>
        rw [hv] at h
        simp only at h
        split at h
        · rename_i same
          exact .vote (same ▸ hv)
        · simp [throw, throwThe, MonadExceptOf.throw] at h
  | acknowledged p =>
    simp only [checkPayload] at h
    split at h
    · simp at h
    · rename_i phase
      simp only [not_or, not_not] at phase
      obtain ⟨-, h⟩ := requireParticipant_bind_eq_ok_iff.1 h
      rw [phase.2.2]
      exact .acknowledged (by simpa [pure, Except.pure] using h)
  | none =>
    simp only [checkPayload] at h
    split at h
    · simp at h
    · split at h <;> simp at h
  | decision d =>
    simp only [checkPayload] at h
    split at h
    · simp at h
    · split at h
      · simp at h
      · split at h <;> simp at h
  | begin _ _ _ => simp [checkPayload] at h
  | prepared _ _ => simp [checkPayload] at h
  | voted _ _ => simp [checkPayload] at h
  | resolved _ => simp [checkPayload] at h

/-- What `check` looks at, in one equation. -/
theorem check_eq_ok_iff {t : Transaction} {e : Entry} {new : Bool} :
    t.check e = .ok new ↔ ∃ next : CoordinatorState, e.transaction = t.id ∧
      e.previous = some t.state.toState ∧ e.state = next.toState ∧
      t.checkPayload next e.payload = .ok new := by
  unfold check
  split
  · simp_all
  · split
    · simp_all
    · simp_all only [ne_eq, not_not, true_and]
      cases hs : CoordinatorState.ofState e.state with
      | error failure =>
        simp only [bind, Except.bind, reduceCtorEq, false_iff, not_exists, not_and]
        intro next hn
        rw [CoordinatorState.ofState_eq_ok_iff.2 hn] at hs
        cases hs
      | ok next =>
        rw [CoordinatorState.ofState_eq_ok_iff] at hs
        simp only [bind, Except.bind, hs]
        constructor
        · exact fun h => ⟨next, rfl, h⟩
        · rintro ⟨next', hn, h⟩
          rw [CoordinatorState.toState_injective hn]
          exact h

/-- An entry that leads on from where a transaction is is judged by its data. -/
theorem check_eq_ok_iff_of_state {t : Transaction} {e : Entry} {next : CoordinatorState}
    {new : Bool} (about : e.transaction = t.id) (previous : e.previous = some t.state.toState)
    (state : e.state = next.toState) :
    t.check e = .ok new ↔ t.checkPayload next e.payload = .ok new := by
  rw [check_eq_ok_iff]
  constructor
  · rintro ⟨next', -, -, state', judged⟩
    rwa [CoordinatorState.toState_injective (state.symm.trans state')]
  · exact fun judged => ⟨next, about, previous, state, judged⟩

/-- An entry is new to a transaction exactly in the five cases, and then changes it as `record`
says. -/
theorem apply_eq_new_iff {t t' : Transaction} {e : Entry} :
    t.apply e = .ok (true, t') ↔ ∃ next : CoordinatorState, e.transaction = t.id ∧
      e.previous = some t.state.toState ∧ e.state = next.toState ∧ t.Advances next e.payload ∧
      t' = t.record next e.payload := by
  unfold apply
  cases h : t.check e with
  | error failure =>
    simp only [bind, Except.bind, reduceCtorEq, false_iff, not_exists, not_and]
    intro next h₁ h₂ h₃ h₄
    rw [check_eq_ok_iff.2 ⟨next, h₁, h₂, h₃, checkPayload_eq_new_iff.2 h₄⟩] at h
    cases h
  | ok new =>
    obtain ⟨next, h₁, h₂, h₃, h₄⟩ := check_eq_ok_iff.1 h
    cases new
    · simp only [bind, Except.bind, pure, Except.pure, Except.ok.injEq, Prod.mk.injEq,
        Bool.false_eq_true, false_and, false_iff, not_exists, not_and]
      intro next' _ _ h₃' h₄'
      cases CoordinatorState.toState_injective (h₃.symm.trans h₃')
      rw [checkPayload_eq_new_iff.2 h₄'] at h₄
      cases h₄
    · have hc : e.state.coordinator? = some next := by rw [h₃]; simp
      simp only [bind, Except.bind, hc, pure, Except.pure, Except.ok.injEq, Prod.mk.injEq,
        true_and]
      constructor
      · rintro rfl
        exact ⟨next, h₁, h₂, h₃, checkPayload_eq_new_iff.1 h₄, rfl⟩
      · rintro ⟨next', _, _, h₃', _, rfl⟩
        rw [CoordinatorState.toState_injective (h₃.symm.trans h₃')]

/-- An entry that repeats what is recorded leaves the transaction as it is. -/
theorem apply_eq_repeated {t t' : Transaction} {e : Entry} (h : t.apply e = .ok (false, t')) :
    t' = t ∧ ∃ next : CoordinatorState, e.transaction = t.id ∧ e.state = next.toState ∧
      t.Repeats next e.payload := by
  unfold apply at h
  cases hc : t.check e with
  | error failure => simp [hc, bind, Except.bind] at h
  | ok new =>
    obtain ⟨next, h₁, h₂, h₃, h₄⟩ := check_eq_ok_iff.1 hc
    have hs : e.state.coordinator? = some next := by rw [h₃]; simp
    cases new with
    | false =>
      simp only [hc, bind, Except.bind, pure, Except.pure, Except.ok.injEq, Prod.mk.injEq,
        true_and] at h
      exact ⟨h.symm, next, h₁, h₃, repeats_of_checkPayload h₄⟩
    | true => simp [hc, hs, bind, Except.bind, pure, Except.pure] at h

end Transaction

end AtomicCommit

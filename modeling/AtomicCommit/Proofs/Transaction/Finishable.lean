import AtomicCommit.Proofs.Transaction.Acceptance

/-!
# Records that can be finished

To finish what it has prepared a participant needs the coordinator to ask and what the resource
manager has prepared. A replay takes the one from the first entry and the other from whichever entry
leads to the prepared state, and compares them with nothing. They belong together all the same: only
the first entry of a history that replays can lead there, and it then brings both.

## Main definitions

* `Record.Finishable`: a record that can be finished.
* `Record.PreparedBy`: the entry by which a record has prepared.
* `Record.Misfit`: what can be wrong with the entries of a participant.

## Main results

* `Record.exists_preparedBy_of_replay`, `Record.finishable_of_replay`: what is replayed can be
  finished.
* `Record.misfit_of_replay`: why a replay is refused.
-/

namespace AtomicCommit

namespace Record

variable {r : Record} {e : Entry} {es : List Entry} {failure : StateError}

/-! ## What is replayed -/

/-- A record that can be finished: if it is prepared or has been committed, the coordinator is
known, with the assent and what has been prepared. -/
structure Finishable (r : Record) : Prop where
  /-- Something is known of the transaction. -/
  begun : r.state ≠ .idle
  /-- What has been prepared has been so for a coordinator, and is at hand. -/
  equipped : r.state = .prepared ∨ r.state = .committed → ∃ coordinator payload,
    r.coordinator = some coordinator ∧ r.vote = some .yes ∧ r.payload = some payload

/-- An entry of a history is the one by which a record has prepared, for this coordinator. -/
structure PreparedBy (es : List Entry) (r : Record) (e : Entry) (coordinator : ProcessId)
    (payload : PreparedPayload) : Prop where
  /-- It is the only entry that leads there. -/
  only : ∀ e' ∈ es, e'.state = .prepared ↔ e' = e
  /-- It is an entry of the history. -/
  member : e ∈ es
  /-- Its data. -/
  carries : e.payload = .prepared coordinator payload
  /-- The coordinator of the record is that of the entry. -/
  coordinator : r.coordinator = some coordinator
  /-- The participant has assented. -/
  assents : r.vote = some .yes
  /-- The payload of the record is that of the entry. -/
  payload : r.payload = some payload

/-- What is prepared or committed after a replay has been prepared by one of the entries. -/
theorem exists_preparedBy_of_replay (h : Record.replay es = .ok (some r))
    (held : r.state = .prepared ∨ r.state = .committed) :
    ∃ e coordinator payload, PreparedBy es r e coordinator payload := by
  obtain ⟨tx, history | withdrawn⟩ := history_or_withdrawn_of_replay h
  · cases history with
    | @prepared e coordinator payload prepares =>
      refine ⟨e, coordinator, payload, ?_, .head _, prepares.payload, rfl, rfl, rfl⟩
      simp [prepares.state, ParticipantState.toState]
    | @resolved e e' coordinator payload d prepares resolves =>
      refine ⟨e, coordinator, payload, ?_, .head _, prepares.payload, rfl, rfl, rfl⟩
      have after : e'.state ≠ .prepared := by
        rw [resolves.state]
        cases d <;> simp [ParticipantState.resolved, ParticipantState.toState]
      have other : e' ≠ e := fun same => after (same ▸ prepares.state)
      simp [prepares.state, ParticipantState.toState, after, other]
    | refused _ => simp at held
    | early _ => simp at held
  · cases withdrawn with
    | withdrawn _ _ => simp at held

theorem begun_of_replay (h : Record.replay es = .ok (some r)) : r.state ≠ .idle := by
  obtain ⟨tx, history | withdrawn⟩ := history_or_withdrawn_of_replay h
  · rcases history.prepared_or_resolved with state | ⟨d, state⟩
    · simp [state]
    · cases d <;> simp [state, ParticipantState.resolved]
  · cases withdrawn with
    | withdrawn _ _ => simp

theorem finishable_of_replay (h : Record.replay es = .ok (some r)) : r.Finishable where
  begun := begun_of_replay h
  equipped held := by
    obtain ⟨_, coordinator, payload, by_⟩ := exists_preparedBy_of_replay h held
    exact ⟨coordinator, payload, by_.coordinator, by_.assents, by_.payload⟩

/-! ## What is refused -/

/-- What can be wrong with the entries of a participant. -/
inductive Misfit : StateError → Prop where
  /-- No history starts so. -/
  | start (tx : TransactionId) (payload : Payload) : Misfit (.historyStart tx payload)
  /-- An entry does not follow. -/
  | follows (previous : Option State) (next : State) (tx : TransactionId)
      (state : ParticipantState) : Misfit (.notFollowing previous next tx state)
  /-- It leads to no state of a participant. -/
  | state (next : State) : Misfit (.notParticipantState next)
  /-- No step leads there. -/
  | move (tx : TransactionId) (state next : ParticipantState) :
      Misfit (.participantMove tx state next)
  /-- Its data does not belong there. -/
  | payload (payload : Payload) (next : ParticipantState) : Misfit (.payloadMove payload next)

theorem misfit_of_step {next : ParticipantState} {payload : Payload}
    (h : r.step next payload = .error failure) : Misfit failure := by
  unfold step at h
  split at h
  · cases h
  · cases h
  · split at h
    · cases h
    · cases h
      exact .payload _ _
  · cases h
    exact .payload _ _

theorem misfit_of_apply (h : r.apply e = .error failure) : Misfit failure := by
  unfold apply at h
  split at h
  · cases h
    exact .follows _ _ _ _
  · cases named : ParticipantState.ofState e.state with
    | error failure' =>
      simp only [named, bind, Except.bind, Except.error.injEq] at h
      subst h
      unfold ParticipantState.ofState at named
      split at named
      · cases named
      · cases named
        exact .state _
    | ok next =>
      simp only [named, bind, Except.bind] at h
      split at h
      · exact misfit_of_step h
      · cases h
        exact .move _ _ _

theorem misfit_of_foldlM (h : es.foldlM apply r = .error failure) : Misfit failure := by
  induction es generalizing r with
  | nil => cases h
  | cons e es ih =>
    rw [List.foldlM_cons] at h
    cases applied : r.apply e with
    | error failure' =>
      simp only [applied, bind, Except.bind, Except.error.injEq] at h
      exact misfit_of_apply (h ▸ applied)
    | ok r' =>
      simp only [applied, bind, Except.bind] at h
      exact ih h

theorem misfit_of_replay (h : Record.replay es = .error failure) : Misfit failure := by
  cases es with
  | nil => cases h
  | cons first rest =>
    unfold Record.replay at h
    cases named : coordinatorOf? first.payload with
    | none =>
      simp only [named, Except.error.injEq] at h
      exact h ▸ .start _ _
    | some coordinator =>
      simp only [named] at h
      cases applied : (first :: rest).foldlM apply
          ({ transaction := first.transaction, coordinator } : Record) with
      | error failure' =>
        simp only [applied, bind, Except.bind, Except.error.injEq] at h
        exact misfit_of_foldlM (h ▸ applied)
      | ok r => simp [applied, bind, Except.bind, pure, Except.pure] at h

end Record

end AtomicCommit

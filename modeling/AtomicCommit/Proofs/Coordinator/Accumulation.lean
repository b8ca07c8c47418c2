import AtomicCommit.Proofs.Coordinator.Run

/-!
# Histories in which nothing is repeated

A history that replays may say the same thing twice: a vote or an acknowledgement that is recorded
may be entered again. A coordinator writes no such history. It asks to append only what is new to
the transaction, and until the entry is stored nobody else can have entered it.

## Main definitions

* `Transaction.Accumulates`: every entry of a history has been new.

## Main results

* `Transaction.Accumulates.count_acknowledged`: nobody has two acknowledgements in it.
* `Coordinator.Reachable.accumulates`: the histories in the log of a coordinator are such.
-/

namespace AtomicCommit

namespace Transaction

variable {entries : List Entry} {e : Entry} {t t' : Transaction}

/-- A transaction comes of entries that have all been new to it. -/
inductive Accumulates : List Entry → Transaction → Prop where
  /-- It begins. -/
  | begin {e : Entry} {t : Transaction} (begins : ofBegin? e = some t) : Accumulates [e] t
  /-- Something new is entered. -/
  | advance {entries : List Entry} {e : Entry} {t t' : Transaction} (before : Accumulates entries t)
      (apply : t.apply e = .ok (true, t')) : Accumulates (entries ++ [e]) t'

theorem Accumulates.replay (h : Accumulates entries t) : replay entries = .ok t := by
  induction h with
  | @begin e t begins =>
    rw [Transaction.replay, begins]
    rfl
  | advance _ apply ih => exact replay_append_of_apply ih apply

/-- Who has acknowledged has one acknowledgement entered, and nobody else has any. -/
theorem Accumulates.count_acknowledged (h : Accumulates entries t) (p : ProcessId) :
    (entries.map Entry.payload).count (.acknowledged p) = (t.acknowledged.contains p).toNat := by
  induction h with
  | begin begins =>
    obtain ⟨begin, -, -, -, none⟩ := ofBegin?_eq_some begins
    obtain ⟨members, payload, -⟩ := begin.payload
    simp [payload, none]
  | @advance entries e t t' _ apply ih =>
    obtain ⟨next, -, -, -, advances, rfl⟩ := apply_eq_new_iff.1 apply
    rw [List.map_append, List.count_append, ih]
    generalize carries : e.payload = payload at advances
    cases advances with
    | @acknowledged q _ _ _ new =>
      simp only [record, SortedSet.contains_insert]
      by_cases same : p = q
      · subst same
        simp [carries, new]
      · simp [carries, same, Ne.symm same]
    | _ => simp [carries, record]

end Transaction

namespace Coordinator

variable {self : Coordinator} {n n' : Node self.role} {past : List (Moment self.role)}
  {log log' : List Entry} {call : ℕ} {e : Entry}

/-- An entry leads on from what a log says of its transaction, whatever else the log says. -/
theorem Extends.congr (h : self.Extends past log call e)
    (same : Log.history log' self.id e.transaction = Log.history log self.id e.transaction) :
    self.Extends past log' call e := by
  cases h with
  | begin drawn fresh begins commissioned =>
    exact .begin drawn (same.trans fresh) begins commissioned
  | @advance t t' logged apply vote acknowledged =>
    obtain ⟨next, about, -⟩ := Transaction.apply_eq_new_iff.1 apply
    rw [about] at same
    exact .advance (by rw [Logged, same]; exact logged) apply vote acknowledged

theorem Reachable.steady (h : self.Reachable n) : self.discipline.Steady n := by
  induction h with
  | initial => exact fun _ _ rests => by cases rests
  | step before step ih =>
    exact ih.step before.holds discipline_lawful obeyed step (tolerates fun _ _ h => h)

/-- What a resting call has asked to append leads on from the log as it is. -/
theorem Reachable.extends (h : self.Reachable n) {t : Thread self.role}
    (rests : n.threads call = some t) (asks : t.question = .inl (.append e)) :
    e.actor = self.id ∧ ∃ past, self.Extends past n.log call e := by
  obtain ⟨own, claimed⟩ := (h.holds.waits call t rests).appends e asks
  obtain ⟨log, last, same⟩ := h.steady call t rests
  obtain ⟨-, before, after, past, -⟩ := eq_append_of_lastOf last
  have asked : (⟨call, .asked (.inl (.append e)), log⟩ : Moment self.role) ∈ n.past := by
    rw [past, asks]
    simp
  obtain ⟨before, -, -, -, -, -, -, -, extends_⟩ := h.holds.chronicle.justified asked
  exact ⟨own, before, extends_.congr (same _ claimed)⟩

/-- In every history that a coordinator writes all entries have been new. -/
theorem Reachable.accumulates (h : self.Reachable n) (tx : TransactionId) :
    Log.history n.log self.id tx = [] ∨
      ∃ t, t.id = tx ∧ Transaction.Accumulates (Log.history n.log self.id tx) t := by
  induction h with
  | initial => exact .inl rfl
  | @step n n' before step ih =>
    rcases step.log with same | ⟨e, other, grown⟩ | ⟨call, t, e, rests, asks, grown⟩
    · rwa [same]
    · rwa [grown, Log.history_append_other _ fun own => absurd own other]
    obtain ⟨own, past, extends_⟩ := before.extends rests asks
    by_cases about : e.transaction = tx
    · subst about
      rw [grown, Log.history_append_own _ own rfl]
      cases extends_ with
      | begin _ fresh begins _ =>
        rw [fresh]
        exact .inr ⟨_, (Transaction.ofBegin?_eq_some begins).1.transaction.symm, .begin begins⟩
      | @advance t t' logged apply _ _ =>
        obtain ⟨next, about, -, -, -, rfl⟩ := Transaction.apply_eq_new_iff.1 apply
        rw [Logged, ← about] at logged
        rcases ih with empty | ⟨t₁, -, accumulates⟩
        · exact absurd empty (Transaction.replay_ne_nil logged)
        · obtain rfl : t₁ = t := Except.ok.inj (accumulates.replay.symm.trans logged)
          exact .inr ⟨_, (Transaction.id_record ..).trans about.symm, accumulates.advance apply⟩
    · rwa [grown, Log.history_append_other _ fun _ => about]

/-- What a coordinator has logged of a transaction has accumulated. -/
theorem Reachable.accumulates_of_logged (h : self.Reachable n) {t : Transaction}
    (logged : self.Logged n.log t) :
    Transaction.Accumulates (Log.history n.log self.id t.id) t := by
  rcases h.accumulates t.id with empty | ⟨t₁, -, accumulates⟩
  · exact absurd empty (Transaction.replay_ne_nil logged)
  · obtain rfl : t₁ = t := Except.ok.inj (accumulates.replay.symm.trans logged)
    exact accumulates

end Coordinator

end AtomicCommit

import AtomicCommit.Proofs.Coordinator.Accumulation
import AtomicCommit.Proofs.Coordinator.Smooth
import AtomicCommit.Proofs.Transaction.Course

/-!
# How long the history of a transaction gets

Every entry of a coordinator records one fact: that the transaction has begun, that votes are asked
for, that somebody has voted, what is decided, that somebody has acknowledged, or that it is over.
The facts that a transaction has recorded can be read off its fields, and an entry that is new to it
adds one to them. So a history in which every entry has been new has one entry for each fact, and
how many there are is bounded by the number of participants.

## Main definitions

* `Fact`, `Entry.fact?`: what an entry records.
* `Transaction.facts`: what a transaction has recorded.

## Main results

* `Transaction.Advances.facts`: a new entry adds one fact.
* `Transaction.Accumulates.facts`: the entries of a history record every fact once.
* `Coordinator.Reachable.history_is_bounded`: the histories that a coordinator writes are bounded.
-/

namespace AtomicCommit

/-- What an entry of a coordinator records. -/
inductive Fact where
  /-- The transaction has begun. -/
  | begun
  /-- Votes are asked for. -/
  | opened
  /-- A participant has voted. -/
  | voted (participant : ProcessId)
  /-- There is a decision. -/
  | decided
  /-- A participant has acknowledged the decision. -/
  | acknowledged (participant : ProcessId)
  /-- The transaction is over. -/
  | ended
deriving DecidableEq

/-- The fact that an entry of a coordinator records. -/
def Entry.fact? (e : Entry) : Option Fact :=
  match e.payload with
  | .begin _ _ _ => some .begun
  | .none => if e.state = .done then some .ended else some .opened
  | .vote p _ => some (.voted p)
  | .decision _ => some .decided
  | .acknowledged p => some (.acknowledged p)
  | _ => none

namespace Transaction

/-- What a transaction has recorded. -/
def facts (t : Transaction) : List Fact :=
  .begun :: (if t.state = .init then [] else [.opened]) ++ t.votes.keys.map .voted
    ++ (if t.decision.isSome then [.decided] else []) ++ t.acknowledged.toList.map .acknowledged
    ++ (if t.state = .done then [.ended] else [])

section Facts

variable {t t' : Transaction} {p : ProcessId}

@[simp]
theorem begun_mem_facts : .begun ∈ t.facts := by
  simp [facts]

@[simp]
theorem opened_mem_facts : .opened ∈ t.facts ↔ t.state ≠ .init := by
  simp [facts]

@[simp]
theorem voted_mem_facts : .voted p ∈ t.facts ↔ t.votes.contains p = true := by
  simp [facts, SortedMap.mem_keys_iff]

@[simp]
theorem decided_mem_facts : .decided ∈ t.facts ↔ t.decision ≠ none := by
  simp [facts, Option.isSome_iff_ne_none]

@[simp]
theorem acknowledged_mem_facts : .acknowledged p ∈ t.facts ↔ t.acknowledged.contains p = true := by
  simp [facts, SortedSet.mem_toList_iff]

@[simp]
theorem ended_mem_facts : .ended ∈ t.facts ↔ t.state = .done := by
  simp [facts]

/-- No fact is listed twice. -/
theorem nodup_facts (t : Transaction) : t.facts.Nodup := by
  have votes : (t.votes.keys.map Fact.voted).Nodup :=
    t.votes.nodup_keys.map fun _ _ => Fact.voted.inj
  have acknowledgements : (t.acknowledged.toList.map Fact.acknowledged).Nodup :=
    (SortedMap.nodup_keys t.acknowledged).map fun _ _ => Fact.acknowledged.inj
  unfold facts
  repeat' split
  all_goals simp [List.nodup_append, votes, acknowledgements, or_imp, forall_and]

theorem length_facts (t : Transaction) :
    t.facts.length = 1 + (if t.state = .init then 0 else 1) + t.votes.size
      + (if t.decision.isSome then 1 else 0) + t.acknowledged.size
      + (if t.state = .done then 1 else 0) := by
  unfold facts SortedSet.toList
  repeat' split
  all_goals simp; omega

/-- What is new to a transaction adds one fact to those it has recorded. -/
theorem Advances.facts {e : Entry} {next : CoordinatorState} (state : e.state = next.toState)
    (h : t.Advances next e.payload) :
    ∃ f, e.fact? = some f ∧ (t.record next e.payload).facts.Perm (f :: t.facts) := by
  suffices ∃ f, e.fact? = some f ∧ f ∉ t.facts ∧
      ∀ g, g ∈ (t.record next e.payload).facts ↔ g = f ∨ g ∈ t.facts by
    obtain ⟨f, records, new, same⟩ := this
    refine ⟨f, records, (List.perm_ext_iff_of_nodup (nodup_facts _) ?_).2 fun g => ?_⟩
    · exact List.nodup_cons.2 ⟨new, nodup_facts t⟩
    · rw [same, List.mem_cons]
  unfold Entry.fact?
  generalize e.payload = payload at h
  cases h with
  | start h =>
    refine ⟨.opened, by simp [state, CoordinatorState.toState], by simp [h], fun g => ?_⟩
    cases g <;> simp [record, h]
  | @vote p v h member new =>
    refine ⟨.voted p, rfl, by simp [SortedMap.contains, new], fun g => ?_⟩
    cases g <;> simp [record, SortedMap.contains_insert]
  | @decision d h new unanimous =>
    refine ⟨.decided, rfl, by simp [new], fun g => ?_⟩
    cases g <;> cases d <;> simp [record, h, CoordinatorState.deciding]
  | @acknowledged p decided h member new =>
    refine ⟨.acknowledged p, rfl, by simp [new], fun g => ?_⟩
    cases g <;> simp [record, SortedSet.contains_insert]
  | finish h all =>
    refine ⟨.ended, by simp [state, CoordinatorState.toState], ?_, fun g => ?_⟩
    · rcases h with h | h <;> simp [h]
    · rcases h with h | h <;> cases g <;> simp [record, h]

end Facts

/-! ## How many there are -/

section Bound

variable {t : Transaction}

/-- With every participant's vote and acknowledgement there are two facts for each, beside four of
the transaction. -/
theorem WellFormed.length_facts_le (w : t.WellFormed) :
    t.facts.length ≤ 2 * t.participants.size + 4 := by
  have votes : t.votes.size ≤ t.participants.size := SortedMap.size_le_of_contains w.voters
  have acknowledgements : t.acknowledged.size ≤ t.participants.size :=
    SortedMap.size_le_of_contains w.acknowledgers
  rw [length_facts]
  repeat' split
  all_goals omega

/-- A transaction that is committed and over has all of them. -/
theorem WellFormed.length_facts_of_done (w : t.WellFormed) (done : t.state = .done)
    (commits : t.decision = some .commit) : t.facts.length = 2 * t.participants.size + 4 := by
  have votes : t.votes.size = t.participants.size :=
    SortedMap.size_eq_of_contains fun p =>
      ⟨w.voters p, fun member => SortedMap.contains_iff.2 ⟨_, w.unanimous commits p member⟩⟩
  have acknowledgements : t.acknowledged.size = t.participants.size :=
    SortedMap.size_eq_of_contains fun p => ⟨w.acknowledgers p, w.finished done p⟩
  rw [length_facts, votes, acknowledgements, done, commits]
  simp
  omega

end Bound

/-! ## Histories in which every entry has been new -/

section Histories

variable {entries : List Entry} {t : Transaction}

/-- Nothing is new to a transaction that is over. -/
theorem not_advances_of_done (done : t.state = .done) {next : CoordinatorState}
    {payload : Payload} : ¬t.Advances next payload := by
  intro h
  cases h <;> simp_all

/-- The entries record every fact once. -/
theorem Accumulates.facts (h : Accumulates entries t) :
    (entries.map Entry.fact?).Perm (t.facts.map some) := by
  induction h with
  | @begin e t begins =>
    obtain ⟨begin, init, votes, decision, acknowledged⟩ := ofBegin?_eq_some begins
    obtain ⟨members, payload, -⟩ := begin.payload
    have recorded : t.facts = [.begun] := by
      rw [Transaction.facts, init, votes, decision, acknowledged]
      rfl
    simp [Entry.fact?, payload, recorded]
  | @advance entries e t t' _ apply ih =>
    obtain ⟨next, -, -, state, advances, rfl⟩ := apply_eq_new_iff.1 apply
    obtain ⟨f, records, grown⟩ := advances.facts state
    calc (entries ++ [e]).map Entry.fact?
        = entries.map Entry.fact? ++ [some f] := by
          rw [List.map_append, List.map_singleton, records]
      _ |>.Perm (some f :: entries.map Entry.fact?) := List.perm_append_singleton ..
      _ |>.Perm ((f :: t.facts).map some) := ih.cons _
      _ |>.Perm ((t.record next e.payload).facts.map some) := grown.symm.map some

/-- Nothing comes after the entry with which a transaction is over. -/
theorem Accumulates.eq_nil_of_done {before after : List Entry} {e : Entry}
    (h : Accumulates entries t) (split : entries = before ++ e :: after) (done : e.state = .done) :
    after = [] := by
  cases h with
  | begin _ =>
    rcases List.append_eq_singleton_iff.1 split.symm with ⟨-, only⟩ | ⟨-, empty⟩
    · exact (List.cons.inj only).2
    · cases empty
  | @advance entries e' t₀ _ earlier apply =>
    obtain ⟨next, -, -, -, advances, -⟩ := apply_eq_new_iff.1 apply
    obtain none | ⟨after', last, rfl⟩ := List.eq_nil_or_concat after
    · exact none
    -- the entry stands among the earlier ones, so that nothing could be new to them
    rw [List.concat_eq_append, ← List.cons_append, ← List.append_assoc] at split
    obtain ⟨rfl, -⟩ := List.append_inj' split rfl
    have ended := (summarizes_of_replay earlier.replay).done.2 ⟨e, by simp, done⟩
    exact absurd advances (not_advances_of_done ended)

end Histories

end Transaction

namespace Coordinator

variable {self : Coordinator} {n : Node self.role}

/-- **The history of a transaction is bounded.** Whatever happens to a coordinator, the entries it
has written for a transaction record each fact that the transaction has recorded, and each of them
once. There are at most two for each participant and four more, exactly so many when the transaction
is committed and over, and none after the entry with which it is over. -/
theorem Reachable.history_is_bounded (h : self.Reachable n) (tx : TransactionId) :
    let entries := Log.history n.log self.id tx
    entries = [] ∨ ∃ t, t.id = tx ∧ self.Logged n.log t ∧
      (entries.map Entry.fact?).Perm (t.facts.map some) ∧ (entries.map Entry.fact?).Nodup ∧
      entries.length ≤ 2 * t.participants.size + 4 ∧
      (t.state = .done → t.decision = some .commit →
        entries.length = 2 * t.participants.size + 4) ∧
      ∀ before e after, entries = before ++ e :: after → e.state = .done → after = [] := by
  intro entries
  rcases h.accumulates tx with empty | ⟨t, rfl, accumulates⟩
  · exact .inl empty
  have once := accumulates.facts
  have distinct : (t.facts.map some).Nodup := t.nodup_facts.map fun _ _ => Option.some.inj
  have length : entries.length = t.facts.length := by simpa using once.length_eq
  have w := Transaction.wellFormed_of_replay accumulates.replay
  refine .inr ⟨t, rfl, accumulates.replay, once, once.nodup_iff.2 distinct, ?_, ?_, ?_⟩
  · exact length.trans_le w.length_facts_le
  · exact fun done commits => length.trans (w.length_facts_of_done done commits)
  · exact fun before e after split done => accumulates.eq_nil_of_done split done

/-- A transaction that has been committed and acknowledged has six entries, for its one
participant. -/
theorem history_is_bounded_doneRun :
    (default : Coordinator).Reachable doneRun ∧
      ∃ t : Transaction, t.id = deal ∧ t.state = .done ∧ t.decision = some .commit ∧
        (Log.history doneRun.log (default : Coordinator).id deal).length
          = 2 * t.participants.size + 4 ∧
        (Log.history doneRun.log (default : Coordinator).id deal).length = 6 := by
  rcases reachable_doneRun.history_is_bounded deal with empty | ⟨t, about, logged, -, -, -, full, -⟩
  · exact absurd empty (by decide +kernel)
  have done : t.state = .done := logged.done_iff.1 (about ▸ by decide +kernel)
  have commits : t.decision = some .commit := logged.decision_iff.1 (about ▸ by decide +kernel)
  exact ⟨reachable_doneRun, t, about, done, commits, full done commits, by decide +kernel⟩

end Coordinator

end AtomicCommit

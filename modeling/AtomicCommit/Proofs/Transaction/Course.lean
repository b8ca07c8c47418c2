import AtomicCommit.Proofs.Transaction.Replay
import Mathlib.Logic.Relation

/-!
# The course of a transaction

Whatever entries a transaction is replayed from, everything on the way was a transaction too, under
the same laws: what is recorded stays recorded, and the state goes from one to the next.

One entry keeps what is recorded (`extends_of_apply`) and moves the state by at most one step
(`moves_of_apply`); both are read off the five ways in which an entry can be new. The same then
holds between any two prefixes of a history.

## Main definitions

* `CoordinatorState.Follows`: one state comes directly after another.
* `Transaction.Lawful`: the laws that hold after every entry.
* `Transaction.Extends`: what a transaction has recorded, a later one has recorded too.

## Main results

* `Transaction.replay_runs_its_course`: the prefixes of a history that replays.
-/

namespace AtomicCommit

/-- One state of a coordinator comes directly after another. -/
inductive CoordinatorState.Follows : CoordinatorState → CoordinatorState → Prop where
  /-- Votes are asked for. -/
  | prepare : Follows .init .preparing
  /-- The votes decide. -/
  | decide (d : Decision) : Follows .preparing (.deciding d)
  /-- Everyone has acknowledged. -/
  | finish (d : Decision) : Follows (.deciding d) .done

theorem CoordinatorState.deciding_injective {d d' : Decision}
    (h : CoordinatorState.deciding d = .deciding d') : d = d' := by
  cases d <;> cases d' <;> first | rfl | cases h

namespace Transaction

open Relation (ReflGen ReflTransGen)

/-- The laws that hold of a transaction after every entry: those between its fields, and what the
state says about them. -/
structure Lawful (t : Transaction) : Prop extends WellFormed t where
  /-- Nobody has voted before votes are asked for. -/
  untouched : t.state = .init → t.votes = ∅
  /-- In the state of a decision this decision is recorded. -/
  decided : ∀ d, t.state = .deciding d → t.decision = some d
  /-- There is no end without a decision. -/
  ended : t.state = .done → ∃ d, t.decision = some d
  /-- There is no acknowledgement without a decision. -/
  backed : ∀ p, t.acknowledged.contains p = true → ∃ d, t.decision = some d
  /-- In the end exactly the participants have acknowledged. -/
  complete : t.state = .done → t.acknowledged = t.participants

theorem WellFormed.lawful {t : Transaction} (w : t.WellFormed)
    (untouched : t.state = .init → t.votes = ∅) : t.Lawful where
  toWellFormed := w
  untouched := untouched
  decided d state := by
    cases decision : t.decision with
    | none => cases d <;> rcases w.undecided.1 decision with h | h <;> cases state.symm.trans h
    | some d' =>
      rcases w.deciding d' decision with h | h
      · rw [CoordinatorState.deciding_injective (state.symm.trans h)]
      · cases d <;> cases state.symm.trans h
  ended done := by
    refine Option.ne_none_iff_exists'.1 fun none => ?_
    rcases w.undecided.1 none with h | h <;> cases done.symm.trans h
  backed p acknowledged := by
    refine Option.ne_none_iff_exists'.1 fun none => ?_
    rw [w.unacknowledged none] at acknowledged
    cases acknowledged
  complete done := SortedSet.eq_of_contains_eq fun p =>
    Bool.eq_iff_iff.2 ⟨w.acknowledgers p, w.finished done p⟩

/-- Votes are recorded only once they are asked for. -/
theorem votes_of_replay {entries : List Entry} {t : Transaction} (h : replay entries = .ok t) :
    t.state = .init → t.votes = ∅ := by
  refine replay_induction (motive := fun _ t => t.state = .init → t.votes = ∅) ?_ ?_ h
  · exact fun e t h _ => (ofBegin?_eq_some h).2.2.1
  · intro entries t e t' new _ ih step
    cases new with
    | false => rwa [(apply_eq_repeated step).1]
    | true =>
      obtain ⟨next, -, -, -, advances, rfl⟩ := apply_eq_new_iff.1 step
      rw [state_record advances]
      generalize e.payload = payload at advances
      intro init
      -- no move leads to the first state, and an acknowledgement leaves the votes alone
      cases advances with
      | start _ => cases init
      | vote _ _ _ _ => cases init
      | @decision d _ _ _ => cases d <;> cases init
      | acknowledged _ _ _ _ => exact ih init
      | finish _ _ => cases init

theorem lawful_of_replay {entries : List Entry} {t : Transaction} (h : replay entries = .ok t) :
    t.Lawful :=
  (wellFormed_of_replay h).lawful (votes_of_replay h)

/-! ## From one prefix to a longer one -/

/-- What a transaction has recorded, a later one has recorded too. -/
structure Extends (later earlier : Transaction) : Prop where
  /-- It is the same transaction. -/
  id : later.id = earlier.id
  /-- It has the same participants. -/
  participants : later.participants = earlier.participants
  /-- A vote stays as it is. -/
  votes : ∀ p v, earlier.votes.get? p = some v → later.votes.get? p = some v
  /-- A decision stays as it is. -/
  decision : ∀ d, earlier.decision = some d → later.decision = some d
  /-- An acknowledgement stays. -/
  acknowledged : ∀ p, earlier.acknowledged.contains p = true →
    later.acknowledged.contains p = true

theorem Extends.refl (t : Transaction) : t.Extends t :=
  ⟨rfl, rfl, fun _ _ h => h, fun _ h => h, fun _ h => h⟩

theorem Extends.trans {t₁ t₂ t₃ : Transaction} (h : t₂.Extends t₁) (h' : t₃.Extends t₂) :
    t₃.Extends t₁ where
  id := h'.id.trans h.id
  participants := h'.participants.trans h.participants
  votes p v recorded := h'.votes p v (h.votes p v recorded)
  decision d made := h'.decision d (h.decision d made)
  acknowledged p recorded := h'.acknowledged p (h.acknowledged p recorded)

variable {t t' : Transaction} {e : Entry} {new : Bool}

/-- An entry takes nothing back. -/
theorem extends_of_apply (step : t.apply e = .ok (new, t')) : t'.Extends t := by
  cases new with
  | false => rw [(apply_eq_repeated step).1]; exact .refl t
  | true =>
    obtain ⟨next, -, -, -, advances, rfl⟩ := apply_eq_new_iff.1 step
    exact {
      id := by rw [id_record]
      participants := by rw [participants_record]
      votes := fun p v recorded => (votes_record advances).2 (.inl recorded)
      decision := fun d made => (decision_record advances).2 (.inl made)
      acknowledged := fun p recorded => (acknowledged_record advances).2 (.inl recorded) }

/-- An entry moves the state by one step or leaves it. -/
theorem moves_of_apply (step : t.apply e = .ok (new, t')) :
    ReflGen CoordinatorState.Follows t.state t'.state := by
  cases new with
  | false => rw [(apply_eq_repeated step).1]
  | true =>
    obtain ⟨next, -, -, -, advances, rfl⟩ := apply_eq_new_iff.1 step
    rw [state_record advances]
    generalize e.payload = payload at advances
    cases advances with
    | start h => rw [h]; exact .single .prepare
    | vote v h _ _ => rw [h]
    | decision h _ _ => rw [h]; exact .single (.decide _)
    | acknowledged _ _ _ _ => exact .refl
    | finish h _ =>
      rcases h with h | h <;> rw [h]
      · exact .single (.finish .commit)
      · exact .single (.finish .abort)

/-- A single entry replays to what it creates. -/
theorem ofBegin?_of_replay (h : replay [e] = .ok t) : ofBegin? e = some t := by
  simp only [replay, applyAll, List.foldlM_nil] at h
  cases created : ofBegin? e with
  | none => simp [created] at h
  | some t₀ => simpa [created, pure, Except.pure] using h

/-- What replays has replayed all along. -/
theorem replay_of_prefix {earlier later : List Entry} (nonempty : earlier ≠ [])
    (sub : earlier <+: later) (h : replay later = .ok t') :
    ∃ t, replay earlier = .ok t ∧ t'.Extends t ∧
      ReflTransGen CoordinatorState.Follows t.state t'.state := by
  obtain ⟨rest, rfl⟩ := sub
  -- the longer prefix grows by one entry at a time
  induction rest using List.reverseRecOn generalizing t' with
  | nil => exact ⟨t', by simpa using h, .refl t', .refl⟩
  | append_singleton rest e ih =>
    rw [← List.append_assoc] at h
    obtain ⟨t₁, new, replayed, step⟩ := apply_of_replay_append (by simp [nonempty]) h
    obtain ⟨t, before, kept, moved⟩ := ih replayed
    exact ⟨t, before, kept.trans (extends_of_apply step),
      moved.trans (moves_of_apply step).to_reflTransGen⟩

/-- **A replay runs its course.** Of a history that replays, the first entry replays to a
transaction in its first state, every prefix to one that obeys the laws, every longer prefix to one
that has all that is recorded and is in the same state or a later one, and one entry more moves the
state by at most one step. -/
theorem replay_runs_its_course {entries : List Entry} {t : Transaction}
    (h : replay entries = .ok t) :
    (∃ first t₀, entries.head? = some first ∧ replay [first] = .ok t₀ ∧ t₀.state = .init) ∧
    (∀ earlier later, earlier ≠ [] → earlier <+: later → later <+: entries →
      ∃ s s', replay earlier = .ok s ∧ replay later = .ok s' ∧ s.Lawful ∧ s'.Lawful ∧
        s'.Extends s ∧ ReflTransGen CoordinatorState.Follows s.state s'.state) ∧
    ∀ earlier e, earlier ≠ [] → earlier ++ [e] <+: entries →
      ∃ s s', replay earlier = .ok s ∧ replay (earlier ++ [e]) = .ok s' ∧
        ReflGen CoordinatorState.Follows s.state s'.state := by
  refine ⟨?_, ?_, ?_⟩
  · obtain ⟨first, rest, rfl⟩ := List.exists_cons_of_ne_nil (replay_ne_nil h)
    obtain ⟨t₀, begun, -, -⟩ := replay_of_prefix (List.cons_ne_nil first [])
      (List.prefix_append [first] rest) h
    exact ⟨first, t₀, rfl, begun, (ofBegin?_eq_some (ofBegin?_of_replay begun)).2.1⟩
  · intro earlier later nonempty sub whole
    obtain ⟨s', replayed, -, -⟩ := replay_of_prefix
      (fun none => nonempty (List.prefix_nil.1 (none ▸ sub))) whole h
    obtain ⟨s, before, kept, moved⟩ := replay_of_prefix nonempty sub replayed
    exact ⟨s, s', before, replayed, lawful_of_replay before, lawful_of_replay replayed, kept, moved⟩
  · intro earlier e nonempty whole
    obtain ⟨s', replayed, -, -⟩ := replay_of_prefix (by simp) whole h
    obtain ⟨s, new, before, step⟩ := apply_of_replay_append nonempty replayed
    exact ⟨s, s', before, replayed, moves_of_apply step⟩

/-- A commit with two participants, from its first entry to its last. -/
def delivered : List Entry :=
  let coordinator : ProcessId := ⟨"coordinator"⟩
  let east : ProcessId := ⟨"east"⟩
  let west : ProcessId := ⟨"west"⟩
  let entry (previous : Option State) (state : State) (payload : Payload) : Entry :=
    { transaction := ⟨1⟩, actor := coordinator, previous, state, payload, time := .epoch }
  [entry none .init (.begin [east, west] ∅ .epoch),
    entry (some .init) .preparing .none,
    entry (some .preparing) .preparing (.vote west .yes),
    entry (some .preparing) .preparing (.vote east .yes),
    entry (some .preparing) .committing (.decision .commit),
    entry (some .committing) .committing (.acknowledged east),
    entry (some .committing) .committing (.acknowledged west),
    entry (some .committing) .done .none]

/-- The vote that is recorded after three entries is recorded at the end, where both participants
have acknowledged the commit. -/
theorem replay_runs_its_course_delivered :
    ∃ s s', replay (delivered.take 3) = .ok s ∧ replay delivered = .ok s' ∧
      s.state = .preparing ∧ s'.state = .done ∧ s'.Lawful ∧ s'.Extends s := by
  have replays : (replay delivered).toOption.map Transaction.state = some .done := by
    decide +kernel
  obtain ⟨t, whole⟩ : ∃ t, replay delivered = .ok t := by
    cases whole : replay delivered with
    | error failure => simp [whole, Except.toOption] at replays
    | ok t => exact ⟨t, rfl⟩
  obtain ⟨s, s', before, after, -, lawful, kept, -⟩ :=
    (replay_runs_its_course whole).2.1 (delivered.take 3) delivered (by decide)
      (List.take_prefix 3 delivered) (List.prefix_refl delivered)
  have preparing : (replay (delivered.take 3)).toOption.map Transaction.state =
      some .preparing := by decide +kernel
  refine ⟨s, s', before, after, ?_, ?_, lawful, kept⟩
  · simpa [before, Except.toOption] using preparing
  · simpa [after, Except.toOption] using replays

end Transaction

end AtomicCommit

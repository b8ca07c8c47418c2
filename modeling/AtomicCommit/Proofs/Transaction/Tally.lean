import AtomicCommit.Proofs.Transaction.Course

/-!
# What a tally says, and that it is final

`tally` looks at the votes recorded and at how many participants there are, and at nothing else.
That this number stands for the participants is a law between the fields (`WellFormed.voters`): the
votes are those of participants, one of each. So an abort means that a participant has refused and a
commit that every participant has assented, in whatever order they did. What is recorded stays, and
the participants stay, and with them a tally that is determined.

## Main definitions

* `Transaction.Refused`, `Transaction.Unanimous`: what the recorded votes come to.

## Main results

* `Transaction.tally_is_final`: what the tally of a replayed transaction says, and that it stays.
-/

namespace AtomicCommit.Transaction

/-- A participant has refused. -/
def Refused (t : Transaction) : Prop :=
  ∃ p, t.participants.contains p = true ∧ t.votes.get? p = some .no

/-- Every participant has assented. -/
def Unanimous (t : Transaction) : Prop :=
  ∀ p, t.participants.contains p = true → t.votes.get? p = some .yes

/-! ## What a tally says -/

namespace WellFormed

variable {t : Transaction}

theorem tally_eq_commit_iff_unanimous (w : t.WellFormed) : t.tally = some .commit ↔ t.Unanimous :=
  tally_eq_commit_iff w.voters

theorem tally_eq_abort_iff_refused (w : t.WellFormed) : t.tally = some .abort ↔ t.Refused := by
  refine tally_eq_abort_iff.trans ⟨?_, ?_⟩
  · rintro ⟨p, refused⟩
    exact ⟨p, w.voters p (SortedMap.contains_iff.2 ⟨_, refused⟩), refused⟩
  · rintro ⟨p, -, refused⟩
    exact ⟨p, refused⟩

theorem tally_eq_none_iff (w : t.WellFormed) : t.tally = none ↔ ¬t.Refused ∧ ¬t.Unanimous := by
  rw [← w.tally_eq_abort_iff_refused, ← w.tally_eq_commit_iff_unanimous]
  rcases t.tally with _ | _ | _ <;> simp

end WellFormed

/-- The tally of a well-formed transaction is that of every other one whose participants have voted
the same. -/
theorem WellFormed.tally_congr {t t' : Transaction} (w : t.WellFormed) (w' : t'.WellFormed)
    (participants : t'.participants = t.participants)
    (votes : ∀ p v, t'.votes.get? p = some v ↔ t.votes.get? p = some v) : t'.tally = t.tally := by
  have refused : t'.Refused ↔ t.Refused := by simp only [Refused, participants, votes]
  have unanimous : t'.Unanimous ↔ t.Unanimous := by simp only [Unanimous, participants, votes]
  rw [← w.tally_eq_abort_iff_refused, ← w'.tally_eq_abort_iff_refused] at refused
  rw [← w.tally_eq_commit_iff_unanimous, ← w'.tally_eq_commit_iff_unanimous] at unanimous
  refine Option.ext fun d => ?_
  cases d with
  | commit => exact unanimous
  | abort => exact refused

/-! ## That it stays -/

theorem Unanimous.extends {t t' : Transaction} (h : t.Unanimous) (more : t'.Extends t) :
    t'.Unanimous := fun p member => more.votes p _ (h p (more.participants ▸ member))

theorem Refused.extends {t t' : Transaction} (h : t.Refused) (more : t'.Extends t) :
    t'.Refused := by
  obtain ⟨p, member, refused⟩ := h
  exact ⟨p, more.participants ▸ member, more.votes p _ refused⟩

/-- A tally that is determined stays while the votes become more. -/
theorem Extends.tally {t t' : Transaction} (more : t'.Extends t) (w : t.WellFormed)
    (w' : t'.WellFormed) {d : Decision} (determined : t.tally = some d) : t'.tally = some d := by
  cases d with
  | commit =>
    have unanimous := w.tally_eq_commit_iff_unanimous.1 determined
    exact w'.tally_eq_commit_iff_unanimous.2 (unanimous.extends more)
  | abort =>
    have refused := w.tally_eq_abort_iff_refused.1 determined
    exact w'.tally_eq_abort_iff_refused.2 (refused.extends more)

/-- **A tally, once determined, is final.** The tally of a transaction that a history replays to is
an abort exactly if a participant has refused, a commit exactly if every participant has assented,
and none otherwise. Every history of the same participants with the same votes in it, in whatever
order, gives the same tally; and neither an entry that is accepted nor any that follow it change a
tally that is determined. -/
theorem tally_is_final {entries : List Entry} {t : Transaction} (h : replay entries = .ok t) :
    (t.tally = some .abort ↔ t.Refused) ∧
    (t.tally = some .commit ↔ t.Unanimous) ∧
    (t.tally = none ↔ ¬t.Refused ∧ ¬t.Unanimous) ∧
    (∀ entries' t', replay entries' = .ok t' → t'.participants = t.participants →
      (∀ p v, .vote p v ∈ entries'.map Entry.payload ↔ .vote p v ∈ entries.map Entry.payload) →
      t'.tally = t.tally) ∧
    (∀ e new t', t.apply e = .ok (new, t') → ∀ d, t.tally = some d → t'.tally = some d) ∧
    ∀ later t', replay (entries ++ later) = .ok t' → ∀ d, t.tally = some d → t'.tally = some d := by
  have w := wellFormed_of_replay h
  refine ⟨w.tally_eq_abort_iff_refused, w.tally_eq_commit_iff_unanimous, w.tally_eq_none_iff,
    ?_, ?_, ?_⟩
  · intro entries' t' h' participants same
    refine w.tally_congr (wellFormed_of_replay h') participants fun p v => ?_
    -- a vote is recorded exactly if an entry of the history holds it
    rw [(summarizes_of_replay h').votes, (summarizes_of_replay h).votes, same]
  · intro e new t' step d determined
    have w' := wellFormed_of_replay (replay_append_of_apply h step)
    exact (extends_of_apply step).tally w w' determined
  · intro later t' h' d determined
    obtain ⟨t₁, replayed, more, -⟩ :=
      replay_of_prefix (replay_ne_nil h) (List.prefix_append entries later) h'
    cases h.symm.trans replayed
    exact more.tally w (wellFormed_of_replay h') determined

/-- After both votes of the delivered commit its tally is a commit. It would be if the other
participant had voted first, and it is in the end. -/
theorem tally_is_final_delivered :
    ∃ t t' t'' : Transaction, replay (delivered.take 4) = .ok t ∧
      replay (delivered.take 2 ++ ((delivered.drop 2).take 2).reverse) = .ok t' ∧
      replay delivered = .ok t'' ∧ t.Unanimous ∧
      t'.tally = some .commit ∧ t''.tally = some .commit := by
  obtain ⟨t, replayed, voted⟩ : ∃ t, replay (delivered.take 4) = .ok t ∧
      (t.tally, t.participants) = (some .commit, SortedSet.ofList [⟨"east"⟩, ⟨"west"⟩]) :=
    exists_of_map_replay (f := fun t => (t.tally, t.participants)) (by decide +kernel)
  obtain ⟨tally, participants⟩ := Prod.mk.inj voted
  obtain ⟨t', turned, same⟩ : ∃ t',
      replay (delivered.take 2 ++ ((delivered.drop 2).take 2).reverse) = .ok t' ∧
      t'.participants = SortedSet.ofList [⟨"east"⟩, ⟨"west"⟩] :=
    exists_of_map_replay (by decide +kernel)
  obtain ⟨t'', ended, -⟩ : ∃ t'', replay delivered = .ok t'' ∧ t''.state = .done :=
    exists_of_map_replay (by decide +kernel)
  obtain ⟨-, commits, -, order, -, stays⟩ := tally_is_final replayed
  refine ⟨t, t', t'', replayed, turned, ended, commits.1 tally, ?_, ?_⟩
  · rw [order _ t' turned (same.trans participants.symm) fun p v => ?_, tally]
    -- the votes are the same two, one before the other
    simp [delivered, or_comm]
  · exact stays (delivered.drop 4) t'' (by rwa [List.take_append_drop]) .commit tally

end AtomicCommit.Transaction

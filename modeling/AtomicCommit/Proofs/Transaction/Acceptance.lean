import AtomicCommit.Proofs.Transaction.Record

/-!
# The histories that replay to a record

`Record.apply` compares an entry with the state it starts from, with the steps a participant can
take, and with the state it leads to; `Accepts` says which entries pass all three. Since nothing
leads on from a resolved record, at most two entries replay, and the lists that do can be told one
by one: the histories that a participant writes, and one that no participant writes, a refusal
after an assent. The data of an entry is compared with the state it leads to and not with the one
it starts from, and a refusal leads to the same state as an abort.

## Main definitions

* `Record.Accepts`: the entries that a record takes, each with the record after it.
* `Record.Withdrawn`: the history in which an assent is followed by a refusal.

## Main results

* `Record.replay_accepts`: which lists of entries replay, and to which records.
-/

namespace AtomicCommit

namespace Record

/-- The entries that a record takes, each with the record after it. -/
inductive Accepts (r : Record) (e : Entry) : Record → Prop where
  /-- It prepares. -/
  | prepare {coordinator : ProcessId} {payload : PreparedPayload} (idle : r.state = .idle)
      (h : e.Takes r.transaction .idle .prepared (.prepared coordinator payload)) :
      Accepts r e { r with vote := some .yes, payload := some payload, state := .prepared }
  /-- It refuses, from wherever an abort is possible. -/
  | refuse {coordinator : ProcessId} (move : r.state.canMoveTo .aborted = true)
      (h : e.Takes r.transaction r.state .aborted (.voted coordinator .no)) :
      Accepts r e { r with vote := some .no, state := .aborted }
  /-- It is told the decision. -/
  | resolve {d : Decision} (move : r.state.canMoveTo (.resolved d) = true)
      (h : e.Takes r.transaction r.state (.resolved d) (.resolved d)) :
      Accepts r e { r with state := .resolved d }

variable {r r' : Record} {e first : Entry} {es rest : List Entry} {tx : TransactionId}

theorem canMoveTo_prepared_iff {s : ParticipantState} :
    s.canMoveTo .prepared = true ↔ s = .idle := by
  cases s <;> simp [ParticipantState.canMoveTo]

/-- The data of an entry that leads on from a record decides what comes of it. -/
theorem accepts_of_step {next : ParticipantState} {payload : Payload}
    (h : e.Takes r.transaction r.state next payload) (move : r.state.canMoveTo next = true)
    (stepped : r.step next payload = .ok r') : r.Accepts e r' := by
  unfold step at stepped
  split at stepped
  · cases stepped
    have idle := canMoveTo_prepared_iff.1 move
    exact .prepare idle (idle ▸ h)
  · cases stepped
    exact .refuse move h
  · split at stepped
    · rename_i leads
      subst leads
      cases stepped
      exact .resolve move h
    · cases stepped
  · cases stepped

/-- A record takes an entry exactly in the three cases. -/
theorem apply_eq_ok_iff : r.apply e = .ok r' ↔ r.Accepts e r' := by
  constructor
  · intro h
    unfold apply at h
    split at h
    · cases h
    · rename_i follows
      simp only [ne_eq, not_or, Decidable.not_not] at follows
      cases named : ParticipantState.ofState e.state with
      | error failure => simp [named, bind, Except.bind] at h
      | ok next =>
        simp only [named, bind, Except.bind] at h
        split at h
        · rename_i move
          exact accepts_of_step ⟨follows.1, follows.2, ofState_eq_ok named, rfl⟩ move h
        · cases h
  · intro h
    cases h with
    | prepare idle h =>
      rw [apply_of_takes (idle ▸ h) (by rw [idle]; rfl)]
      rfl
    | refuse move h =>
      rw [apply_of_takes h move]
      rfl
    | resolve move h =>
      rw [apply_of_takes h move]
      simp [step]

/-! ## How far entries can go -/

/-- A resolved record takes no entry. -/
theorem not_accepts_of_terminal (terminal : r.state.isTerminal = true) : ¬r.Accepts e r' := by
  intro h
  cases h with
  | prepare idle _ => simp [idle, ParticipantState.isTerminal] at terminal
  | refuse move _ => cases hs : r.state <;> simp_all [ParticipantState.isTerminal,
      ParticipantState.canMoveTo]
  | @resolve d move _ => cases d <;> cases hs : r.state <;>
      simp_all [ParticipantState.isTerminal, ParticipantState.canMoveTo]

theorem foldlM_apply_cons : (e :: es).foldlM apply r = .ok r' ↔
    ∃ r₁, r.Accepts e r₁ ∧ es.foldlM apply r₁ = .ok r' := by
  simp only [← apply_eq_ok_iff, List.foldlM_cons]
  cases r.apply e <;> simp [bind, Except.bind]

/-- Nothing is applied to a resolved record. -/
theorem foldlM_apply_of_terminal (terminal : r.state.isTerminal = true) :
    es.foldlM apply r = .ok r' ↔ es = [] ∧ r' = r := by
  cases es with
  | nil => simp [pure, Except.pure, eq_comm]
  | cons e es =>
    rw [foldlM_apply_cons]
    simp [not_accepts_of_terminal terminal]

/-- A prepared record is resolved by the next entry. -/
theorem Accepts.terminal (h : r.Accepts e r') (prepared : r.state = .prepared) :
    r'.state.isTerminal = true := by
  cases h with
  | prepare idle _ => cases prepared.symm.trans idle
  | refuse _ _ => rfl
  | @resolve d _ _ => cases d <;> rfl

/-- At most one entry is applied to a prepared record. -/
theorem foldlM_apply_of_prepared (prepared : r.state = .prepared) :
    es.foldlM apply r = .ok r' ↔ es = [] ∧ r' = r ∨ ∃ e, es = [e] ∧ r.Accepts e r' := by
  cases es with
  | nil => simp [pure, Except.pure, eq_comm]
  | cons e es =>
    rw [foldlM_apply_cons]
    constructor
    · rintro ⟨r₁, accepted, applied⟩
      obtain ⟨rfl, rfl⟩ :=
        (foldlM_apply_of_terminal (accepted.terminal prepared)).1 applied
      exact .inr ⟨e, rfl, accepted⟩
    · rintro (⟨none, -⟩ | ⟨e', only, accepted⟩)
      · cases none
      · cases only
        exact ⟨r', accepted, (foldlM_apply_of_terminal (accepted.terminal prepared)).2 ⟨rfl, rfl⟩⟩

/-! ## The histories -/

/-- The history that replays and that no participant writes: it has prepared, and then it
refuses. -/
inductive Withdrawn (tx : TransactionId) : List Entry → Record → Prop where
  /-- The refusal takes the place of the resolution. -/
  | withdrawn {e e' : Entry} {coordinator coordinator' : ProcessId} {payload : PreparedPayload}
      (h : e.Takes tx .idle .prepared (.prepared coordinator payload))
      (h' : e'.Takes tx .prepared .aborted (.voted coordinator' .no)) :
      Withdrawn tx [e, e']
        { transaction := tx, coordinator := some coordinator, state := .aborted,
          vote := some .no, payload := some payload }

theorem Withdrawn.replay (h : Withdrawn tx es r) : Record.replay es = .ok (some r) := by
  cases h with
  | withdrawn h h' =>
    simp [Record.replay, coordinatorOf?, h.transaction, h.previous, h.state, h.payload,
      h'.transaction, h'.previous, h'.state, h'.payload, apply, step,
      ParticipantState.canMoveTo, bind, Except.bind, pure, Except.pure]

/-- The first entry names the coordinator, and is then taken like any other. -/
theorem accepts_of_replay_cons (h : Record.replay (first :: rest) = .ok (some r)) :
    ∃ coordinator r₁, coordinatorOf? first.payload = some coordinator ∧
      Accepts { transaction := first.transaction, coordinator } first r₁ ∧
      rest.foldlM apply r₁ = .ok r := by
  obtain ⟨coordinator, _, named, applied, ⟨⟩⟩ := replay_cons_eq_ok_iff.1 h
  obtain ⟨r₁, accepted, others⟩ := foldlM_apply_cons.1 applied
  exact ⟨coordinator, r₁, named, accepted, others⟩

/-- A list of entries replays if it is one of the histories. -/
theorem history_or_withdrawn_of_replay (h : Record.replay es = .ok (some r)) :
    ∃ tx, History tx es r ∨ Withdrawn tx es r := by
  cases es with
  | nil => cases h
  | cons first rest =>
    obtain ⟨coordinator, r₁, named, accepted, applied⟩ := accepts_of_replay_cons h
    refine ⟨first.transaction, ?_⟩
    -- what the first entry does decides how many may follow
    cases accepted with
    | prepare _ begun =>
      rw [begun.payload] at named
      cases named
      obtain ⟨rfl, rfl⟩ | ⟨e', rfl, accepted'⟩ := (foldlM_apply_of_prepared rfl).1 applied
      · exact .inl (.prepared begun)
      · cases accepted' with
        | prepare idle _ => cases idle
        | refuse _ refused => exact .inr (.withdrawn begun refused)
        | resolve _ resolved => exact .inl (.resolved begun resolved)
    | refuse _ refused =>
      rw [refused.payload] at named
      cases named
      obtain ⟨rfl, rfl⟩ := (foldlM_apply_of_terminal rfl).1 applied
      exact .inl (.refused refused)
    | @resolve d move resolved =>
      rw [resolved.payload] at named
      cases d with
      | commit => cases named
      | abort =>
        cases named
        obtain ⟨rfl, rfl⟩ := (foldlM_apply_of_terminal rfl).1 applied
        exact .inl (.early resolved)

/-- A prefix of a history replays as far as it goes, and shows the vote. -/
theorem History.vote_of_nonempty_prefix {es₀ : List Entry} (h : History tx es r)
    (nonempty : es₀ ≠ []) (sub : es₀ <+: es) :
    ∃ r₀, Record.replay es₀ = .ok (some r₀) ∧ r.vote = r₀.vote := by
  cases h with
  | @resolved e e' coordinator payload d h h' =>
    obtain ⟨first, others, rfl⟩ := List.exists_cons_of_ne_nil nonempty
    obtain ⟨rfl, after⟩ := List.cons_prefix_cons.1 sub
    cases others with
    | nil => exact ⟨_, (History.prepared h).replay, rfl⟩
    | cons second others =>
      obtain ⟨rfl, none⟩ := List.cons_prefix_cons.1 after
      rw [List.prefix_nil.1 none]
      exact ⟨_, (History.resolved h h').replay, rfl⟩
  | prepared h =>
    rw [sub.eq_of_length_le (List.length_pos_iff.2 nonempty)]
    exact ⟨_, (History.prepared h).replay, rfl⟩
  | refused h =>
    rw [sub.eq_of_length_le (List.length_pos_iff.2 nonempty)]
    exact ⟨_, (History.refused h).replay, rfl⟩
  | early h =>
    rw [sub.eq_of_length_le (List.length_pos_iff.2 nonempty)]
    exact ⟨_, (History.early h).replay, rfl⟩

/-- **What replays to a record.** Nothing replays to no record, the histories that a participant
writes replay to theirs, a refusal after an assent replays as well, and nothing else does. Unless it
is withdrawn, the vote is that of every prefix. -/
theorem replay_accepts (es : List Entry) :
    (Record.replay es = .ok none ↔ es = []) ∧
    (∀ r, Record.replay es = .ok (some r) ↔ ∃ tx, History tx es r ∨ Withdrawn tx es r) ∧
    ∀ r, Record.replay es = .ok (some r) → (∀ tx, ¬Withdrawn tx es r) →
      ∀ es₀, es₀ ≠ [] → es₀ <+: es →
        ∃ r₀, Record.replay es₀ = .ok (some r₀) ∧ r.vote = r₀.vote := by
  refine ⟨⟨eq_nil_of_replay, ?_⟩, fun r => ⟨history_or_withdrawn_of_replay, ?_⟩, ?_⟩
  · rintro rfl
    rfl
  · rintro ⟨tx, h | h⟩
    · exact h.replay
    · exact h.replay
  · intro r h kept es₀ nonempty sub
    obtain ⟨tx, h | h⟩ := history_or_withdrawn_of_replay h
    · exact h.vote_of_nonempty_prefix nonempty sub
    · exact absurd h (kept tx)

/-- An assent to a transaction, and an entry after it. -/
def assentThen (next : ParticipantState) (payload : Payload) : List Entry :=
  let entry (previous next : ParticipantState) (payload : Payload) : Entry :=
    { transaction := ⟨1⟩, actor := ⟨"participant"⟩, previous := some previous.toState,
      state := next.toState, payload, time := .epoch }
  [entry .idle .prepared (.prepared ⟨"coordinator"⟩ ⟨[1, 2]⟩), entry .prepared next payload]

/-- The record of a transaction after an assent. -/
def assented (state : ParticipantState) (vote : Vote) : Record :=
  { transaction := ⟨1⟩, coordinator := some ⟨"coordinator"⟩, state, vote := some vote,
    payload := some ⟨[1, 2]⟩ }

/-- A commit after an assent replays, with the vote of the assent. -/
theorem replay_accepts_assentThen :
    Record.replay (assentThen .committed (.resolved .commit)) =
        .ok (some (assented .committed .yes)) ∧
      ∃ r₀, Record.replay ((assentThen .committed (.resolved .commit)).take 1) = .ok (some r₀) ∧
        some Vote.yes = r₀.vote := by
  have history : History ⟨1⟩ (assentThen .committed (.resolved .commit))
      (assented .committed .yes) :=
    .resolved (d := .commit) ⟨rfl, rfl, rfl, rfl⟩ ⟨rfl, rfl, rfl, rfl⟩
  obtain ⟨-, language, votes⟩ := replay_accepts (assentThen .committed (.resolved .commit))
  have replays := (language _).2 ⟨⟨1⟩, .inl history⟩
  refine ⟨replays, votes _ replays ?_ _ (by decide) (List.take_prefix 1 _)⟩
  intro tx withdrawn
  have vote : (assented .committed .yes).vote = some .no := by
    generalize assented .committed .yes = r at withdrawn ⊢
    cases withdrawn
    rfl
  cases vote

/-- A refusal after an assent replays although no participant writes it, and changes the vote. -/
theorem refusal_after_assent_replays :
    ∃ r₀ r, Record.replay ((assentThen .aborted (.voted ⟨"coordinator"⟩ .no)).take 1) =
        .ok (some r₀) ∧
      Record.replay (assentThen .aborted (.voted ⟨"coordinator"⟩ .no)) = .ok (some r) ∧
      (∀ tx, ¬History tx (assentThen .aborted (.voted ⟨"coordinator"⟩ .no)) r) ∧
      r₀.vote = some .yes ∧ r.vote = some .no := by
  refine ⟨assented .prepared .yes, assented .aborted .no, rfl, rfl, ?_, rfl, rfl⟩
  intro tx history
  -- the first entry of a history shows the vote of its record
  cases history.vote_eq

end Record

end AtomicCommit

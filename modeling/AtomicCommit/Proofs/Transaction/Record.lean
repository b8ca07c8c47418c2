import AtomicCommit.Transaction.Record

/-!
# The histories a participant writes

A participant takes a transaction through at most two steps: it prepares and later resolves, it
refuses, or it is told to abort before anybody has asked. Each of these histories replays to the
record that the participant has of it.

## Main definitions

* `Entry.Takes`: an entry takes a transaction from one state to another.
* `Record.History`: the histories, each with its record.
-/

namespace AtomicCommit

/-- An entry takes a transaction from one state of a participant to another, with its data. -/
structure Entry.Takes (e : Entry) (tx : TransactionId) (s s' : ParticipantState)
    (payload : Payload) : Prop where
  /-- It is about the transaction. -/
  transaction : e.transaction = tx
  /-- Where it starts. -/
  previous : e.previous = some s.toState
  /-- Where it leads. -/
  state : e.state = s'.toState
  /-- Its data. -/
  payload : e.payload = payload

/-- The vote that the data of an entry shows. -/
def Payload.vote? : Payload → Option Vote
  | .prepared _ _ => some .yes
  | .voted _ v => some v
  | _ => Option.none

theorem ParticipantState.toState_injective {a b : ParticipantState} (h : a.toState = b.toState) :
    a = b := by
  cases a <;> cases b <;> simp_all [toState]

namespace Record

/-- The histories that a participant writes, and the records they lead to. -/
inductive History (tx : TransactionId) : List Entry → Record → Prop where
  /-- It has prepared. -/
  | prepared {e : Entry} {coordinator : ProcessId} {payload : PreparedPayload}
      (h : e.Takes tx .idle .prepared (.prepared coordinator payload)) :
      History tx [e]
        { transaction := tx, coordinator := some coordinator, state := .prepared,
          vote := some .yes, payload := some payload }
  /-- It has prepared and been told the decision. -/
  | resolved {e e' : Entry} {coordinator : ProcessId} {payload : PreparedPayload} {d : Decision}
      (h : e.Takes tx .idle .prepared (.prepared coordinator payload))
      (h' : e'.Takes tx .prepared (.resolved d) (.resolved d)) :
      History tx [e, e']
        { transaction := tx, coordinator := some coordinator, state := .resolved d,
          vote := some .yes, payload := some payload }
  /-- It has refused. -/
  | refused {e : Entry} {coordinator : ProcessId}
      (h : e.Takes tx .idle .aborted (.voted coordinator .no)) :
      History tx [e]
        { transaction := tx, coordinator := some coordinator, state := .aborted,
          vote := some .no }
  /-- It has been told to abort before anybody asked. -/
  | early {e : Entry} (h : e.Takes tx .idle .aborted (.resolved .abort)) :
      History tx [e] { transaction := tx, coordinator := none, state := .aborted }

@[simp] theorem ofState_toState (s : ParticipantState) :
    ParticipantState.ofState s.toState = .ok s := by
  cases s <;> rfl

/-- What an entry does to a record that it fits. -/
theorem apply_of_takes {r : Record} {e : Entry} {next : ParticipantState} {payload : Payload}
    (h : e.Takes r.transaction r.state next payload) (move : r.state.canMoveTo next = true) :
    r.apply e = r.step next payload := by
  simp [apply, h.transaction, h.previous, h.state, h.payload, move, bind, Except.bind]

variable {tx : TransactionId} {es : List Entry} {r : Record}

/-! ## What a replay ends in -/

theorem ofState_eq_ok {s : State} {next : ParticipantState}
    (h : ParticipantState.ofState s = .ok next) : s = next.toState := by
  cases s <;> cases h <;> rfl

theorem state_of_step {r' : Record} {next : ParticipantState} {payload : Payload}
    (h : r.step next payload = .ok r') : r'.state = next := by
  unfold step at h
  split at h
  · cases h
    rfl
  · cases h
    rfl
  · split at h
    · cases h
      rfl
    · cases h
  · cases h

/-- An entry that a record takes leads to the state it names. -/
theorem state_of_apply {r' : Record} {e : Entry} (h : r.apply e = .ok r') :
    e.state = r'.state.toState := by
  unfold apply at h
  split at h
  · cases h
  · cases named : ParticipantState.ofState e.state with
    | error failure => simp [named, bind, Except.bind] at h
    | ok next =>
      simp only [named, bind, Except.bind] at h
      split at h
      · rw [state_of_step h]
        exact ofState_eq_ok named
      · cases h

/-- The first entry of a history names the coordinator, and is then applied like the others. -/
theorem replay_cons_eq_ok_iff {first : Entry} {rest : List Entry} {found : Option Record} :
    Record.replay (first :: rest) = .ok found ↔
      ∃ coordinator r, coordinatorOf? first.payload = some coordinator ∧
        (first :: rest).foldlM apply { transaction := first.transaction, coordinator } = .ok r ∧
        found = some r := by
  unfold Record.replay
  cases named : coordinatorOf? first.payload with
  | none => simp [named]
  | some coordinator =>
    simp only [named, Option.some.injEq, exists_and_left, exists_eq_left']
    cases (first :: rest).foldlM apply
        ({ transaction := first.transaction, coordinator } : Record) with
    | error failure => simp [bind, Except.bind]
    | ok r => simp [bind, Except.bind, pure, Except.pure, eq_comm]

/-- Only an empty history replays to nothing. -/
theorem eq_nil_of_replay (h : Record.replay es = .ok none) : es = [] := by
  cases es with
  | nil => rfl
  | cons first rest =>
    obtain ⟨coordinator, r, -, -, none⟩ := replay_cons_eq_ok_iff.1 h
    cases none

/-- Any history that replays ends in the state of its record. -/
theorem last_of_replay (h : Record.replay es = .ok (some r)) :
    es.getLast?.map Entry.state = some r.state.toState := by
  cases es with
  | nil => cases h
  | cons first rest =>
    obtain ⟨coordinator, r, -, applied, ⟨⟩⟩ := replay_cons_eq_ok_iff.1 h
    generalize ({ transaction := first.transaction, coordinator } : Record) = start at applied
    obtain whole | ⟨before, last, whole⟩ := List.eq_nil_or_concat (first :: rest)
    · cases whole
    rw [List.concat_eq_append] at whole
    rw [whole, List.foldlM_append] at applied
    cases front : before.foldlM apply start with
    | error failure => simp [front, bind, Except.bind] at applied
    | ok r₁ =>
      rw [front] at applied
      have only : [last].foldlM apply r₁ = .ok r := applied
      have final : r₁.apply last = .ok r := by simpa using only
      rw [whole, List.getLast?_append]
      simp [state_of_apply final]

namespace History

theorem transaction (h : History tx es r) : r.transaction = tx := by
  cases h <;> rfl

theorem ne_nil (h : History tx es r) : es ≠ [] := by
  cases h <;> simp

/-- A history replays to its record. -/
theorem replay (h : History tx es r) : Record.replay es = .ok (some r) := by
  cases h with
  | prepared h =>
    simp [Record.replay, coordinatorOf?, h.transaction, h.previous, h.state, h.payload, apply,
      step, ParticipantState.canMoveTo, bind, Except.bind, pure, Except.pure]
  | @resolved e e' coordinator payload d h h' =>
    cases d <;>
      simp [Record.replay, coordinatorOf?, h.transaction, h.previous, h.state, h.payload,
        h'.transaction, h'.previous, h'.state, h'.payload, apply, step,
        ParticipantState.canMoveTo, ParticipantState.resolved, bind, Except.bind, pure, Except.pure]
  | refused h =>
    simp [Record.replay, coordinatorOf?, h.transaction, h.previous, h.state, h.payload, apply,
      step, ParticipantState.canMoveTo, bind, Except.bind, pure, Except.pure]
  | early h =>
    simp [Record.replay, coordinatorOf?, h.transaction, h.previous, h.state, h.payload, apply,
      step, ParticipantState.canMoveTo, ParticipantState.resolved, bind, Except.bind, pure,
      Except.pure]

/-- A history leads to one record. -/
theorem unique {r' : Record} (h : History tx es r) (h' : History tx es r') : r' = r := by
  have := h'.replay.symm.trans h.replay
  simpa using this

/-- A prepared transaction is resolved by one more entry. -/
theorem resolve (h : History tx es r) (prepared : r.state = .prepared) {e : Entry} {d : Decision}
    (he : e.Takes tx .prepared (.resolved d) (.resolved d)) :
    r.apply e = .ok { r with state := .resolved d } ∧
      History tx (es ++ [e]) { r with state := .resolved d } := by
  have id := h.transaction
  constructor
  · rw [apply_of_takes (by rw [id, prepared]; exact he) (by rw [prepared]; cases d <;> rfl)]
    simp [step]
  · cases h with
    | prepared h => exact .resolved h he
    | @resolved _ _ _ _ d' _ _ => cases d' <;> cases prepared
    | refused _ => cases prepared
    | early _ => cases prepared

/-! ## What the entries show -/

/-- Who has prepared has an entry that says for whom, with what it has to commit or abort. -/
theorem exists_prepared (h : History tx es r) (yes : r.vote = some .yes) :
    ∃ e ∈ es, ∃ coordinator payload, e.Takes tx .idle .prepared (.prepared coordinator payload) ∧
      r.coordinator = some coordinator ∧ r.payload = some payload := by
  cases h with
  | prepared h => exact ⟨_, .head _, _, _, h, rfl, rfl⟩
  | resolved h _ => exact ⟨_, .head _, _, _, h, rfl, rfl⟩
  | refused _ => cases yes
  | early _ => cases yes

theorem vote_of_prepared (h : History tx es r) (prepared : r.state = .prepared) :
    r.vote = some .yes := by
  cases h with
  | prepared _ => rfl
  | resolved _ _ => rfl
  | refused _ => cases prepared
  | early _ => cases prepared

theorem prepared_iff (h : History tx es r) :
    (∃ e ∈ es, e.state = .prepared) ↔ r.vote = some .yes := by
  cases h with
  | prepared h => simp [h.state, ParticipantState.toState]
  | @resolved _ _ _ _ d h h' => simp [h.state, ParticipantState.toState]
  | refused h => simp [h.state, ParticipantState.toState]
  | early h => simp [h.state, ParticipantState.toState]

theorem resolved_iff (h : History tx es r) {d : Decision} :
    (∃ e ∈ es, e.state = (ParticipantState.resolved d).toState) ↔ r.state = .resolved d := by
  cases h with
  | prepared h => cases d <;> simp [h.state, ParticipantState.toState, ParticipantState.resolved]
  | @resolved _ _ _ _ d' h h' =>
    cases d <;> cases d' <;>
      simp [h.state, h'.state, ParticipantState.toState, ParticipantState.resolved]
  | refused h => cases d <;> simp [h.state, ParticipantState.toState, ParticipantState.resolved]
  | early h => cases d <;> simp [h.state, ParticipantState.toState, ParticipantState.resolved]

/-- Who is resolved has an entry of the decision, or has refused. -/
theorem exists_of_resolved (h : History tx es r) {d : Decision} (resolved : r.state = .resolved d) :
    (∃ e ∈ es, e.payload = .resolved d) ∨
      d = .abort ∧ r.vote = some .no ∧
        ∃ e ∈ es, ∃ coordinator, e.payload = .voted coordinator .no := by
  cases h with
  | prepared _ => cases d <;> cases resolved
  | @resolved _ e' _ _ d' _ h' =>
    have same : d' = d := by cases d <;> cases d' <;> first | rfl | cases resolved
    exact .inl ⟨e', by simp, same ▸ h'.payload⟩
  | @refused e coordinator h =>
    cases d with
    | commit => cases resolved
    | abort => exact .inr ⟨rfl, rfl, e, .head _, coordinator, h.payload⟩
  | @early e h =>
    cases d with
    | commit => cases resolved
    | abort => exact .inl ⟨e, .head _, h.payload⟩

/-- Who has prepared has not refused. -/
theorem payload_ne_voted (h : History tx es r) (yes : r.vote = some .yes) {e : Entry} (he : e ∈ es)
    {coordinator : ProcessId} {v : Vote} : e.payload ≠ .voted coordinator v := by
  cases h with
  | prepared h =>
    rw [List.mem_singleton.1 he, h.payload]
    nofun
  | resolved h h' =>
    simp only [List.mem_cons, List.not_mem_nil, or_false] at he
    rcases he with rfl | rfl
    · rw [h.payload]
      nofun
    · rw [h'.payload]
      nofun
  | refused _ => cases yes
  | early _ => cases yes

theorem prepared_or_resolved (h : History tx es r) :
    r.state = .prepared ∨ ∃ d, r.state = .resolved d := by
  cases h with
  | prepared _ => exact .inl rfl
  | @resolved _ _ _ _ d _ _ => exact .inr ⟨d, rfl⟩
  | refused _ => exact .inr ⟨.abort, rfl⟩
  | early _ => exact .inr ⟨.abort, rfl⟩

/-- The last entry leads to the state of the record. -/
theorem last (h : History tx es r) : es.getLast?.map Entry.state = some r.state.toState := by
  cases h with
  | prepared h => simp [h.state]
  | resolved _ h' => simp [h'.state]
  | refused h => simp [h.state]
  | early h => simp [h.state]

/-- Who has voted no has aborted. -/
theorem aborted_of_ne_yes (h : History tx es r) (no : r.vote ≠ some .yes) :
    r.state = .resolved .abort := by
  cases h with
  | prepared _ => exact absurd rfl no
  | resolved _ _ => exact absurd rfl no
  | refused _ => rfl
  | early _ => rfl

/-- The first entry shows the vote. -/
theorem vote_eq (h : History tx es r) : r.vote = es.head?.bind fun e => e.payload.vote? := by
  cases h with
  | prepared h => simp [h.payload, Payload.vote?]
  | resolved h _ => simp [h.payload, Payload.vote?]
  | refused h => simp [h.payload, Payload.vote?]
  | early h => simp [h.payload, Payload.vote?]

/-- What has been voted stays. -/
theorem vote_of_prefix {es' : List Entry} {r' : Record} (h : History tx es r)
    (h' : History tx es' r') (sub : es <+: es') : r'.vote = r.vote := by
  rw [h.vote_eq, h'.vote_eq]
  obtain ⟨rest, rfl⟩ := sub
  cases es with
  | nil => exact absurd rfl h.ne_nil
  | cons e es => rfl

/-- Nothing is written after a resolution or a refusal. -/
theorem eq_of_prefix {es' : List Entry} {r' : Record} (h : History tx es r) (h' : History tx es' r')
    (sub : es <+: es') (terminal : r.state ≠ .prepared) : es' = es := by
  suffices es'.length ≤ es.length from (sub.eq_of_length_le this).symm
  cases h' with
  | @resolved e e' _ _ _ prepared _ =>
    -- the first entry is common, and it prepares
    have first : ∀ e₀, [e₀] <+: [e, e'] → e₀.state = .prepared := by
      intro e₀ sub
      rw [(List.cons_prefix_cons.1 sub).1]
      exact prepared.state
    cases h with
    | prepared _ => exact absurd rfl terminal
    | resolved _ _ => simp
    | refused h => cases h.state.symm.trans (first _ sub)
    | early h => cases h.state.symm.trans (first _ sub)
  | _ => exact List.length_pos_iff.2 h.ne_nil

/-- A history that is longer by one entry is the first of a transaction or the resolution of what
was prepared. -/
theorem snoc_cases {e : Entry} {r' : Record} (h : History tx (es ++ [e]) r') :
    (es = [] ∧ ((∃ coordinator payload,
        e.Takes tx .idle .prepared (.prepared coordinator payload)) ∨
      (∃ coordinator, e.Takes tx .idle .aborted (.voted coordinator .no)) ∨
      e.Takes tx .idle .aborted (.resolved .abort))) ∨
    ∃ r d, History tx es r ∧ r.state = .prepared ∧
      e.Takes tx .prepared (.resolved d) (.resolved d) := by
  generalize whole : es ++ [e] = es' at h
  cases h with
  | prepared h =>
    obtain ⟨rfl, last⟩ := List.append_inj' (whole.trans (List.nil_append _).symm) rfl
    cases last
    exact .inl ⟨rfl, .inl ⟨_, _, h⟩⟩
  | @resolved e₀ e' coordinator payload d h h' =>
    obtain ⟨rfl, last⟩ := List.append_inj' (whole.trans (List.singleton_append ..).symm) rfl
    cases last
    exact .inr ⟨_, d, .prepared h, rfl, h'⟩
  | refused h =>
    obtain ⟨rfl, last⟩ := List.append_inj' (whole.trans (List.nil_append _).symm) rfl
    cases last
    exact .inl ⟨rfl, .inr (.inl ⟨_, h⟩)⟩
  | early h =>
    obtain ⟨rfl, last⟩ := List.append_inj' (whole.trans (List.nil_append _).symm) rfl
    cases last
    exact .inl ⟨rfl, .inr (.inr h)⟩

/-- Who is prepared has one entry, with the coordinator and what has been prepared. -/
theorem singleton_of_prepared (h : History tx es r) (prepared : r.state = .prepared) :
    ∃ e coordinator payload, es = [e] ∧
      e.Takes tx .idle .prepared (.prepared coordinator payload) ∧
      r.coordinator = some coordinator ∧ r.payload = some payload := by
  cases h with
  | prepared h => exact ⟨_, _, _, rfl, h, rfl, rfl⟩
  | @resolved _ _ _ _ d _ _ => cases d <;> cases prepared
  | refused _ => cases prepared
  | early _ => cases prepared

/-- Who was prepared for a coordinator has an entry that names it. -/
theorem coordinator_of_prepared (h : History tx es r) (prepared : r.state = .prepared)
    {e : Entry} (he : e ∈ es) {coordinator : ProcessId} {payload : PreparedPayload}
    (named : e.payload = .prepared coordinator payload) : r.coordinator = some coordinator := by
  obtain ⟨e', _, _, rfl, takes, coordinator', -⟩ := h.singleton_of_prepared prepared
  rw [List.mem_singleton.1 he, takes.payload] at named
  cases named
  exact coordinator'

end History

end Record

end AtomicCommit

import AtomicCommit.Proofs.Transaction.Advance
import Mathlib.Data.List.Induction

/-!
# What a replayed transaction says about its history

A transaction that a history replays to is well formed, and its fields are a summary of the
history: a vote is recorded exactly if a vote entry is there, a decision exactly if a decision
entry is there, and so on. Both are kept by every entry, so they hold of every replay.

## Main definitions

* `Transaction.WellFormed`: the laws between the fields of a transaction.
* `Transaction.Summarizes`: how the fields follow from the entries.
-/

namespace AtomicCommit

/-- Whether the data of an entry is a decision of a coordinator. -/
def Payload.isDecision : Payload → Bool
  | .decision _ => true
  | _ => false

theorem CoordinatorState.toState_eq_done_iff {s : CoordinatorState} :
    s.toState = .done ↔ s = .done := by
  cases s <;> simp [toState]

/-- What has been decided is not yet done. -/
theorem CoordinatorState.deciding_ne_done (d : Decision) : deciding d ≠ .done := by
  cases d <;> simp [deciding]

namespace Transaction

/-! ## Replay, entry by entry -/

theorem replay_append {entries : List Entry} (e : Entry) (h : entries ≠ []) :
    replay (entries ++ [e]) = (replay entries).bind fun t => Prod.snd <$> t.apply e := by
  obtain ⟨first, rest, rfl⟩ := List.exists_cons_of_ne_nil h
  simp only [List.cons_append, replay]
  cases ofBegin? first with
  | none => rfl
  | some t => simp only [applyAll, List.foldlM_append, List.foldlM_cons, List.foldlM_nil,
      bind_pure]; rfl

theorem replay_ne_nil {entries : List Entry} {t : Transaction} (h : replay entries = .ok t) :
    entries ≠ [] := by
  rintro rfl
  cases h

/-- Replay goes on with the next entry. -/
theorem replay_append_of_apply {entries : List Entry} {e : Entry} {t t' : Transaction} {new : Bool}
    (h : replay entries = .ok t) (step : t.apply e = .ok (new, t')) :
    replay (entries ++ [e]) = .ok t' := by
  rw [replay_append e (replay_ne_nil h), h]
  simp [Except.bind, step, Functor.map, Except.map]

/-- The last entry of a replay has been applied to what the others replay to. -/
theorem apply_of_replay_append {entries : List Entry} {e : Entry} {t' : Transaction}
    (nonempty : entries ≠ []) (h : replay (entries ++ [e]) = .ok t') :
    ∃ t new, replay entries = .ok t ∧ t.apply e = .ok (new, t') := by
  rw [replay_append e nonempty] at h
  cases ht : replay entries with
  | error failure => simp [ht, Except.bind] at h
  | ok t =>
    cases ha : t.apply e with
    | error failure => simp [ht, ha, Except.bind, Functor.map, Except.map] at h
    | ok result =>
      obtain ⟨new, t₁⟩ := result
      simp only [ht, ha, Except.bind, Functor.map, Except.map, Except.ok.injEq] at h
      exact ⟨t, new, rfl, h ▸ ha⟩

/-- What is computed from a replay is computed from a transaction. -/
theorem exists_of_map_replay {α : Type*} {f : Transaction → α} {a : α} {entries : List Entry}
    (h : (replay entries).toOption.map f = some a) : ∃ t, replay entries = .ok t ∧ f t = a := by
  cases replayed : replay entries with
  | error failure => simp [replayed, Except.toOption] at h
  | ok t => exact ⟨t, rfl, by simpa [replayed, Except.toOption] using h⟩

/-- What holds of a transaction at its first entry, and is kept by every later one, holds of every
replay. -/
theorem replay_induction {motive : List Entry → Transaction → Prop}
    (begin : ∀ e t, ofBegin? e = some t → motive [e] t)
    (step : ∀ entries t e t' new, replay entries = .ok t → motive entries t →
      t.apply e = .ok (new, t') → motive (entries ++ [e]) t')
    {entries : List Entry} {t : Transaction} (h : replay entries = .ok t) : motive entries t := by
  induction entries using List.reverseRecOn generalizing t with
  | nil => cases h
  | append_singleton entries e ih =>
    by_cases nonempty : entries = []
    · subst nonempty
      simp only [List.nil_append, replay] at h
      cases hb : ofBegin? e with
      | none => simp [hb] at h
      | some t₀ =>
        simp only [hb, applyAll, List.foldlM_nil, pure, Except.pure, Except.ok.injEq] at h
        exact begin e t (h ▸ hb)
    · obtain ⟨t₀, new, ht, ha⟩ := apply_of_replay_append nonempty h
      exact step entries t₀ e t new ht (ih ht) ha

/-- The entry that creates a transaction. -/
structure IsBegin (e : Entry) (t : Transaction) : Prop where
  transaction : e.transaction = t.id
  previous : e.previous = none
  state : e.state = .init
  payload : ∃ members, e.payload = .begin members t.operations t.deadline ∧
    t.participants = SortedSet.ofList members
  time : e.time = t.createdAt

theorem ofBegin?_eq_some {e : Entry} {t : Transaction} (h : ofBegin? e = some t) :
    IsBegin e t ∧ t.state = .init ∧ t.votes = ∅ ∧ t.decision = none ∧ t.acknowledged = ∅ := by
  unfold ofBegin? at h
  split at h
  · rename_i previous state payload
    cases h
    exact ⟨⟨rfl, previous, state, ⟨_, payload, rfl⟩, rfl⟩, rfl, rfl, rfl, rfl⟩
  · cases h

/-- Transactions that are created by the same entry have the same participants and operations. -/
theorem IsBegin.agree {e : Entry} {t t' : Transaction} (h : IsBegin e t) (h' : IsBegin e t') :
    t'.participants = t.participants ∧ t'.operations = t.operations := by
  obtain ⟨members, payload, same⟩ := h.payload
  obtain ⟨members', payload', same'⟩ := h'.payload
  obtain ⟨rfl, operations, -⟩ := Payload.begin.inj (payload.symm.trans payload')
  exact ⟨same'.trans same.symm, operations.symm⟩

/-! ## The laws between the fields -/

/-- The laws between the fields of a transaction. -/
structure WellFormed (t : Transaction) : Prop where
  /-- Only participants vote. -/
  voters : ∀ p, t.votes.contains p = true → t.participants.contains p = true
  /-- Only participants acknowledge. -/
  acknowledgers : ∀ p, t.acknowledged.contains p = true → t.participants.contains p = true
  /-- The state shows whether there is a decision. -/
  undecided : t.decision = none ↔ t.state = .init ∨ t.state = .preparing
  /-- Between the decision and the end the state is that of the decision. -/
  deciding : ∀ d, t.decision = some d → t.state = .deciding d ∨ t.state = .done
  /-- Nobody acknowledges what is not decided. -/
  unacknowledged : t.decision = none → t.acknowledged = ∅
  /-- A commit has every vote. -/
  unanimous : t.decision = some .commit →
    ∀ p, t.participants.contains p = true → t.votes.get? p = some .yes
  /-- A transaction is done when every participant has acknowledged. -/
  finished : t.state = .done → ∀ p, t.participants.contains p = true →
    t.acknowledged.contains p = true

/-- Votes that determine a commit are those of all participants. -/
theorem get?_votes_of_tally {t : Transaction} (h : t.tally = some .commit)
    (voters : ∀ p, t.votes.contains p = true → t.participants.contains p = true) {p : ProcessId}
    (member : t.participants.contains p = true) : t.votes.get? p = some .yes := by
  unfold tally Decision.ofVotes at h
  split at h
  · simp at h
  · rename_i refusal
    split at h
    · rename_i count
      rw [SortedMap.length_values] at count
      have voted := SortedMap.contains_of_size_eq voters count member
      obtain ⟨v, hv⟩ := SortedMap.contains_iff.1 voted
      cases v with
      | yes => exact hv
      | no => exact absurd (SortedMap.mem_values_iff.2 ⟨p, hv⟩) (by simpa using refusal)
    · simp at h

/-- The votes determine a commit when every participant has assented. -/
theorem tally_eq_commit_iff {t : Transaction}
    (voters : ∀ p, t.votes.contains p = true → t.participants.contains p = true) :
    t.tally = some .commit ↔
      ∀ p, t.participants.contains p = true → t.votes.get? p = some .yes := by
  refine ⟨fun h p => get?_votes_of_tally h voters, fun assented => ?_⟩
  have unanimous : ¬t.votes.values.contains .no = true := by
    intro refusal
    obtain ⟨p, refused⟩ := SortedMap.mem_values_iff.1 (List.contains_iff_mem.1 refusal)
    rw [assented p (voters p (SortedMap.contains_iff.2 ⟨_, refused⟩))] at refused
    cases refused
  have count : t.votes.values.length = t.participants.size := by
    rw [SortedMap.length_values]
    refine SortedMap.size_eq_of_contains fun p => ⟨voters p, fun member => ?_⟩
    exact SortedMap.contains_iff.2 ⟨_, assented p member⟩
  rw [tally, Decision.ofVotes, if_neg unanimous, if_pos count]

/-- The votes determine an abort when somebody has refused. -/
theorem tally_eq_abort_iff {t : Transaction} :
    t.tally = some .abort ↔ ∃ p, t.votes.get? p = some .no := by
  rw [← SortedMap.mem_values_iff, ← List.contains_iff_mem, tally, Decision.ofVotes]
  split
  · rename_i refusal
    simpa using refusal
  · rename_i unanimous
    split <;> simpa using unanimous

/-- Whatever has been voted there is a decision: a commit if the votes determine one, and an abort
otherwise. -/
theorem WellFormed.advances_decision {t : Transaction} (w : t.WellFormed)
    (preparing : t.state = .preparing) :
    t.Advances (.deciding (t.tally.getD .abort)) (.decision (t.tally.getD .abort)) := by
  refine .decision preparing (w.undecided.2 (.inr preparing)) fun commits => ?_
  cases tally : t.tally with
  | none => simp [tally] at commits
  | some d => simpa [tally] using commits

theorem WellFormed.advance {t : Transaction} (w : t.WellFormed) {next : CoordinatorState}
    {payload : Payload} (h : t.Advances next payload) : (t.record next payload).WellFormed := by
  cases h with
  | start h =>
    have undecided := w.undecided.2 (.inl h)
    constructor <;> simp_all [record, w.voters, w.acknowledgers, w.unacknowledged]
  | @vote p v h member new =>
    have undecided := w.undecided.2 (.inr h)
    constructor
    · intro q hq
      rw [record, SortedMap.contains_insert] at hq
      rcases Bool.or_eq_true_iff.1 hq with hq | hq
      · rw [of_decide_eq_true hq]; exact member
      · exact w.voters q hq
    all_goals simp_all [record, w.acknowledgers, w.unacknowledged]
  | @decision d h new unanimous =>
    constructor
    · exact w.voters
    · exact w.acknowledgers
    · cases d <;> simp [record, CoordinatorState.deciding]
    · intro d' hd
      cases hd
      exact .inl rfl
    · simp [record]
    · intro hd p member
      cases hd
      exact get?_votes_of_tally (unanimous rfl) w.voters member
    · cases d <;> simp [record, CoordinatorState.deciding]
  | @acknowledged p decided h member new =>
    constructor
    · exact w.voters
    · intro q hq
      rw [record, SortedSet.contains_insert] at hq
      rcases Bool.or_eq_true_iff.1 hq with hq | hq
      · rw [of_decide_eq_true hq]; exact member
      · exact w.acknowledgers q hq
    · exact w.undecided
    · exact w.deciding
    · intro undecided
      exact absurd undecided decided
    · exact w.unanimous
    · intro done
      exact absurd done h
  | finish h all =>
    have decided : t.decision ≠ none := by
      intro none
      rcases w.undecided.1 none with h' | h' <;> simp [h'] at h
    constructor
    · exact w.voters
    · exact w.acknowledgers
    · simp [record, decided]
    · intro d _
      exact .inr rfl
    · intro none
      exact absurd none decided
    · exact w.unanimous
    · intro _ p member
      exact SortedMap.contains_of_size_eq w.acknowledgers all member

theorem wellFormed_of_replay {entries : List Entry} {t : Transaction}
    (h : replay entries = .ok t) : t.WellFormed := by
  refine replay_induction (motive := fun _ t => t.WellFormed) ?_ ?_ h
  · intro e t h
    obtain ⟨-, state, votes, decision, acknowledged⟩ := ofBegin?_eq_some h
    constructor <;> simp [state, votes, decision, acknowledged]
  · intro entries t e t' new _ w step
    cases new with
    | false => rw [(apply_eq_repeated step).1]; exact w
    | true =>
      obtain ⟨next, -, -, -, advances, rfl⟩ := apply_eq_new_iff.1 step
      exact w.advance advances

/-! ## The history behind the fields -/

section Record

variable {t : Transaction} {next : CoordinatorState} {payload : Payload}

@[simp] theorem id_record (t : Transaction) (next : CoordinatorState) (payload : Payload) :
    (t.record next payload).id = t.id := by
  cases payload <;> rfl

@[simp] theorem participants_record (t : Transaction) (next : CoordinatorState)
    (payload : Payload) : (t.record next payload).participants = t.participants := by
  cases payload <;> rfl

/-- What an entry creates is not touched by later ones. -/
theorem isBegin_record_iff {e : Entry} : IsBegin e (t.record next payload) ↔ IsBegin e t := by
  cases payload <;>
    exact ⟨fun ⟨a, b, c, d, f⟩ => ⟨a, b, c, d, f⟩, fun ⟨a, b, c, d, f⟩ => ⟨a, b, c, d, f⟩⟩

theorem state_record (h : t.Advances next payload) : (t.record next payload).state = next := by
  cases h <;> simp_all [record]

theorem votes_record (h : t.Advances next payload) {p : ProcessId} {v : Vote} :
    (t.record next payload).votes.get? p = some v ↔
      t.votes.get? p = some v ∨ payload = .vote p v := by
  cases h with
  | @vote q w h member new =>
    rw [record, SortedMap.get?_insert]
    by_cases hq : p = q
    · subst q
      simp [new]
    · simp [hq, Ne.symm hq]
  | _ => simp [record]

theorem decision_record (h : t.Advances next payload) {d : Decision} :
    (t.record next payload).decision = some d ↔
      t.decision = some d ∨ payload = .decision d := by
  cases h with
  | decision h new unanimous => simp [record, new]
  | _ => simp [record]

theorem acknowledged_record (h : t.Advances next payload) {p : ProcessId} :
    (t.record next payload).acknowledged.contains p = true ↔
      t.acknowledged.contains p = true ∨ payload = .acknowledged p := by
  cases h with
  | @acknowledged q decided h member new =>
    rw [record, SortedSet.contains_insert]
    by_cases hq : p = q
    · simp [hq]
    · simp [hq, Ne.symm hq]
  | _ => simp [record]

end Record

/-- The shape of an entry in the history of a transaction: which data stands between which
states. -/
structure Fits (t : Transaction) (e : Entry) : Prop where
  /-- It is about the transaction. -/
  transaction : e.transaction = t.id
  /-- Only the first entry creates the transaction. -/
  begin : ∀ members operations deadline, e.payload = .begin members operations deadline →
    IsBegin e t
  /-- A decision leads from the collection of votes to its delivery. -/
  decision : ∀ d, e.payload = .decision d →
    e.previous = some .preparing ∧ e.state = (CoordinatorState.deciding d).toState

/-- How the fields of a transaction follow from the entries of its history. -/
structure Summarizes (t : Transaction) (entries : List Entry) : Prop where
  /-- Some entry creates the transaction. -/
  begun : ∃ e ∈ entries, IsBegin e t
  /-- Every entry has the shape of its data. -/
  fits : ∀ e ∈ entries, t.Fits e
  /-- The state is that of the last entry. -/
  last : entries.getLast?.map Entry.state = some t.state.toState
  /-- Votes are collected once an entry says so. -/
  started : t.state ≠ .init ↔
    ∃ e ∈ entries, e.previous = some .init ∧ e.state = .preparing ∧ e.payload = .none
  /-- The votes are those of the vote entries. -/
  votes : ∀ p v, t.votes.get? p = some v ↔ .vote p v ∈ entries.map Entry.payload
  /-- The decision is that of the decision entries. -/
  decision : ∀ d, t.decision = some d ↔ .decision d ∈ entries.map Entry.payload
  /-- There is at most one decision entry. -/
  once : (entries.filter fun e => e.payload.isDecision).length ≤ t.decision.toList.length
  /-- Those have acknowledged of whom an entry says so. -/
  acknowledged : ∀ p, t.acknowledged.contains p = true ↔
    .acknowledged p ∈ entries.map Entry.payload
  /-- The transaction is done when an entry says so. -/
  done : t.state = .done ↔ ∃ e ∈ entries, e.state = .done

/-- A transaction has the participants and operations of every beginning in its history. -/
theorem Summarizes.agree {t t' : Transaction} {entries : List Entry} {e : Entry}
    (h : t'.Summarizes entries) (begin : IsBegin e t) (he : e ∈ entries) :
    t'.participants = t.participants ∧ t'.operations = t.operations := by
  obtain ⟨members, payload, -⟩ := begin.payload
  exact begin.agree ((h.fits e he).begin _ _ _ payload)

theorem summarizes_begin {e : Entry} {t : Transaction} (h : ofBegin? e = some t) :
    t.Summarizes [e] := by
  obtain ⟨begin, state, votes, decision, acknowledged⟩ := ofBegin?_eq_some h
  obtain ⟨members, payload, -⟩ := begin.payload
  constructor
  · exact ⟨e, .head _, begin⟩
  · intro e' he'
    rw [List.mem_singleton.1 he']
    exact ⟨begin.transaction, fun _ _ _ _ => begin, by simp [payload]⟩
  all_goals simp [state, votes, decision, acknowledged, payload, begin.state,
    CoordinatorState.toState, Payload.isDecision]

theorem Fits.of_repeats {t : Transaction} {e : Entry} {next : CoordinatorState}
    (ht : e.transaction = t.id) (h : t.Repeats next e.payload) : t.Fits e := by
  generalize hp : e.payload = payload at h
  refine ⟨ht, ?_, ?_⟩ <;> cases h <;> simp [hp]

theorem Fits.of_advances {t : Transaction} {e : Entry} {next : CoordinatorState}
    (ht : e.transaction = t.id) (hprev : e.previous = some t.state.toState)
    (he : e.state = next.toState) (h : t.Advances next e.payload) : t.Fits e := by
  generalize hp : e.payload = payload at h
  refine ⟨ht, ?_, ?_⟩
  · cases h <;> simp [hp]
  · cases h with
    | decision h new unanimous =>
      intro d hd
      rw [hp] at hd
      cases hd
      exact ⟨by rw [hprev, h]; rfl, he⟩
    | _ => simp [hp]

theorem Fits.record {t : Transaction} {e : Entry} (f : t.Fits e) (next : CoordinatorState)
    (payload : Payload) : (t.record next payload).Fits e where
  transaction := by cases payload <;> exact f.transaction
  begin members operations deadline hp :=
    isBegin_record_iff.2 (f.begin members operations deadline hp)
  decision := f.decision

theorem Summarizes.repeated {t : Transaction} {entries : List Entry} (s : t.Summarizes entries)
    {e : Entry} {next : CoordinatorState} (ht : e.transaction = t.id)
    (he : e.state = next.toState) (h : t.Repeats next e.payload) :
    t.Summarizes (entries ++ [e]) := by
  have fits : t.Fits e := .of_repeats ht h
  obtain ⟨first, hfirst, begun⟩ := s.begun
  generalize hp : e.payload = payload at h
  have same : next = t.state := by cases h <;> rfl
  constructor
  · exact ⟨first, List.mem_append_left _ hfirst, begun⟩
  · simpa [or_imp, forall_and, fits] using s.fits
  · simp [he, same]
  · have : e.payload ≠ .none := by
      rw [hp]
      cases h <;> simp
    simp [s.started, or_and_right, exists_or, this]
  · intro p v
    cases h <;> simp_all [s.votes]
  · intro d
    cases h <;> simp [hp, s.decision]
  · have : payload.isDecision = false := by cases h <;> rfl
    simpa [hp, this] using s.once
  · intro p
    cases h <;> simp_all [s.acknowledged]
  · rw [s.done]
    have : e.state = .done → ∃ e ∈ entries, e.state = .done := by
      rw [he, same, CoordinatorState.toState_eq_done_iff]
      exact s.done.1
    simpa [or_imp] using this

theorem Summarizes.advance {t : Transaction} {entries : List Entry} (s : t.Summarizes entries)
    {e : Entry} {next : CoordinatorState} (ht : e.transaction = t.id)
    (hprev : e.previous = some t.state.toState) (he : e.state = next.toState)
    (h : t.Advances next e.payload) : (t.record next e.payload).Summarizes (entries ++ [e]) := by
  have fits : t.Fits e := .of_advances ht hprev he h
  obtain ⟨first, hfirst, begun⟩ := s.begun
  constructor
  · exact ⟨first, List.mem_append_left _ hfirst, isBegin_record_iff.2 begun⟩
  · intro e' he'
    rcases List.mem_append.1 he' with he' | he'
    · exact (s.fits e' he').record next e.payload
    · rw [List.mem_singleton.1 he']
      exact fits.record next e.payload
  · simp [he, state_record h]
  · rw [state_record h]
    constructor
    · intro hs
      by_cases init : t.state = .init
      · refine ⟨e, by simp, by rw [hprev, init]; rfl, ?_⟩
        generalize e.payload = payload at h
        cases h <;> simp_all [CoordinatorState.toState]
      · obtain ⟨e', he', h⟩ := s.started.1 init
        exact ⟨e', List.mem_append_left _ he', h⟩
    · rintro ⟨e', he', previous, state, payload⟩ hn
      rcases List.mem_append.1 he' with he' | he'
      · have started := s.started.2 ⟨e', he', previous, state, payload⟩
        generalize e.payload = payload at h
        cases h with
        | @decision d => cases d <;> cases hn
        | _ => simp_all
      · rw [List.mem_singleton.1 he', he, hn] at state
        cases state
  · intro p v
    simp [votes_record h, s.votes, eq_comm]
  · intro d
    simp [decision_record h, s.decision, eq_comm]
  · have old := s.once
    generalize hp : e.payload = payload at h ⊢
    cases h <;> simp_all [Payload.isDecision, record]
  · intro p
    simp [acknowledged_record h, s.acknowledged, eq_comm]
  · rw [state_record h, ← CoordinatorState.toState_eq_done_iff, ← he]
    have : ∀ e ∈ entries, e.state ≠ .done := by
      intro e' he' hd
      have done := s.done.2 ⟨e', he', hd⟩
      generalize e.payload = payload at h
      cases h <;> simp_all
    simpa using fun e' he' hd => absurd hd (this e' he')

theorem summarizes_of_replay {entries : List Entry} {t : Transaction}
    (h : replay entries = .ok t) : t.Summarizes entries := by
  refine replay_induction (motive := fun entries t => t.Summarizes entries) ?_ ?_ h
  · exact fun e t h => summarizes_begin h
  · intro entries t e t' new ht s step
    cases new with
    | false =>
      obtain ⟨rfl, next, ht, he, repeats⟩ := apply_eq_repeated step
      exact s.repeated ht he repeats
    | true =>
      obtain ⟨next, ht, hprev, he, advances, rfl⟩ := apply_eq_new_iff.1 step
      exact s.advance ht hprev he advances

end Transaction

end AtomicCommit

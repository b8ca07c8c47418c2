import AtomicCommit.Proofs.Coordinator.Smooth

/-!
# The order of replies

A coordinator takes the replies to its requests for votes as they come. It stops at the first that
settles the matter, so which votes it comes to enter depends on the order in which replies arrive.
What it decides does not: it commits if the votes entered before are assents and every participant
that it has asked assents in time.

## Main definitions

* `Coordinator.counted`: the votes that are entered of the replies that arrive.
* `Coordinator.Hears`: how replies arrive.
* `Coordinator.Polls`: what is asked to come to a decision.
* `Coordinator.Polled`, `Coordinator.Counting`: the invariant of the collection of votes.

## Main results

* `Coordinator.Polled.tally_eq_commit_iff`: what has been entered determines the decision.
* `Coordinator.decision_ignores_order`: the decision, and what is entered on the way to it.
-/

namespace AtomicCommit.Coordinator

variable {self : Coordinator} {t t' : Transaction} {history : List Entry}
  {replies : ProcessId → Except TransportError Vote} {arrivals heard rest : List ProcessId}
  {said : List (Exchange self.role)} {memory : Memory} {p : ProcessId} {v : Vote}

/-! ## Replies that arrive -/

/-- The votes that are entered when replies arrive in this order: up to and including the first
refusal, or up to the first that is not a vote. -/
def counted (replies : ProcessId → Except TransportError Vote) :
    (arrivals : List ProcessId) → List (ProcessId × Vote)
  | [] => []
  | p :: rest =>
    match replies p with
    | .error _ => []
    | .ok .no => [(p, .no)]
    | .ok .yes => (p, .yes) :: counted replies rest

theorem counted_cons_of_error {failure : TransportError} (said : replies p = .error failure) :
    counted replies (p :: rest) = [] := by
  rw [counted, said]

theorem counted_cons_of_no (said : replies p = .ok .no) :
    counted replies (p :: rest) = [(p, .no)] := by
  rw [counted, said]

theorem counted_cons_of_yes (said : replies p = .ok .yes) :
    counted replies (p :: rest) = (p, .yes) :: counted replies rest := by
  rw [counted, said]

/-- Assents are entered as they come. -/
theorem counted_append (assented : ∀ p ∈ heard, replies p = .ok .yes) :
    counted replies (heard ++ rest) = heard.map (·, .yes) ++ counted replies rest := by
  induction heard with
  | nil => rfl
  | cons p heard ih =>
    rw [List.cons_append, counted_cons_of_yes (assented p (.head _)), ih fun q hq =>
      assented q (.tail _ hq), List.map_cons, List.cons_append]

/-- What is entered has arrived. -/
theorem of_mem_counted (h : (p, v) ∈ counted replies arrivals) :
    p ∈ arrivals ∧ replies p = .ok v := by
  induction arrivals with
  | nil => cases h
  | cons q rest ih =>
    cases said : replies q with
    | error failure =>
      rw [counted_cons_of_error said] at h
      cases h
    | ok vote =>
      cases vote with
      | no =>
        rw [counted_cons_of_no said, List.mem_singleton] at h
        cases h
        exact ⟨.head _, said⟩
      | yes =>
        rw [counted_cons_of_yes said, List.mem_cons] at h
        rcases h with h | h
        · cases h
          exact ⟨.head _, said⟩
        · exact (ih h).imp_left (.tail _)

/-- Nobody's vote is entered twice. -/
theorem nodup_counted (nodup : arrivals.Nodup) :
    ((counted replies arrivals).map Prod.fst).Nodup := by
  induction arrivals with
  | nil => exact .nil
  | cons q rest ih =>
    cases said : replies q with
    | error failure => simp [counted_cons_of_error said]
    | ok vote =>
      cases vote with
      | no => simp [counted_cons_of_no said]
      | yes =>
        obtain ⟨new, nodup⟩ := List.nodup_cons.1 nodup
        rw [counted_cons_of_yes said, List.map_cons, List.nodup_cons]
        refine ⟨fun old => ?_, ih nodup⟩
        obtain ⟨⟨p, v⟩, mem, rfl⟩ := List.mem_map.1 old
        exact new (of_mem_counted mem).1

/-- If everybody who arrives assents, every vote is entered. -/
theorem mem_counted_of_unanimous (assented : ∀ p ∈ arrivals, replies p = .ok .yes)
    (hp : p ∈ arrivals) : (p, .yes) ∈ counted replies arrivals := by
  rw [← List.append_nil arrivals, counted_append assented]
  exact List.mem_append_left _ (List.mem_map_of_mem hp)

/-- How a coordinator is answered when replies arrive in this order and entries are stored: whoever
arrives next of those that it awaits is heard next, until nobody else does. -/
def Hears (c : Coordinator) (replies : ProcessId → Except TransportError Vote)
    (arrivals : List ProcessId) : (q : c.role.Request) → c.role.Answer q → Prop
  | .inl (.append _), stored => stored = .ok ()
  | .inr (.awaitVote _ awaited), reply =>
    reply.map Reply.sender = arrivals.find? (fun p => p ∈ awaited) ∧
      ∀ r, reply = some r → r.result = replies r.sender
  | _, _ => True

/-- What a coordinator may ask on its way to a decision, after what has been said: participants only
if the votes entered do not determine it, and then all whose votes are missing. It panics only if
its clock can not tell when it would cease to wait for them. -/
inductive Polls (c : Coordinator) (t : Transaction) (said : List (Exchange c.role)) :
    c.role.Request → Prop where
  /-- The time. -/
  | now : Polls c t said (.inl .now)
  /-- For the votes that are missing. -/
  | request {resuming : Bool} {time : Duration} (undetermined : t.tally = none) :
      Polls c t said (.inr (.requestVotes resuming
        (t.pendingVotes.map fun p => (p, c.prepareMessage t p)) time))
  /-- For a reply. -/
  | await {awaited : List ProcessId} (undetermined : t.tally = none) :
      Polls c t said (.inr (.awaitVote t.id awaited))
  /-- To store a vote. -/
  | vote {e : Entry} {p : ProcessId} {v : Vote} (undetermined : t.tally = none)
      (own : e.actor = c.id) (about : e.transaction = t.id) (payload : e.payload = .vote p v) :
      Polls c t said (.inl (.append e))
  /-- To store the decision. -/
  | decision {e : Entry} {d : Decision} (own : e.actor = c.id) (about : e.transaction = t.id)
      (payload : e.payload = .decision d) : Polls c t said (.inl (.append e))
  /-- Nothing more. -/
  | panic (overdue : Overdue said) : Polls c t said (.inr .panic)

/-- The contract of a coordinator that comes to a decision while replies arrive. -/
abbrev polling (c : Coordinator) (t : Transaction)
    (replies : ProcessId → Except TransportError Vote) (arrivals : List ProcessId) :
    Contract (interface.sharing Memory) (List (Exchange c.role)) :=
  c.role.hearing (c.Polls t) fun _ => c.Hears replies arrivals

/-! ## Votes that have been entered -/

/-- A transaction has come to be what it is by entering votes. -/
structure Polled (history : List Entry) (t : Transaction) (ballot : List (ProcessId × Vote))
    (entries : List Entry) (t' : Transaction) : Prop where
  /-- It is the same transaction. -/
  id : t'.id = t.id
  /-- With the same participants. -/
  participants : t'.participants = t.participants
  /-- Votes are being collected. -/
  preparing : t'.state = .preparing
  /-- The entries lead to it. -/
  replay : Transaction.replay (history ++ entries) = .ok t'
  /-- They are votes. -/
  entered : entries.map Entry.payload = ballot.map fun pv => .vote pv.1 pv.2

section Polled

variable {ballot : List (ProcessId × Vote)} {entries : List Entry}

theorem Polled.start (replay : Transaction.replay history = .ok t)
    (preparing : t.state = .preparing) : Polled history t [] [] t :=
  ⟨rfl, rfl, preparing, by rwa [List.append_nil], rfl⟩

/-- One more vote is entered. -/
theorem Polled.vote (h : Polled history t ballot entries t') {e : Entry}
    (takes : self.Takes t' .preparing (.vote p v) e) :
    Polled history t (ballot ++ [(p, v)]) (entries ++ [e]) (t'.record .preparing (.vote p v)) where
  id := h.id
  participants := h.participants
  preparing := h.preparing
  replay := by
    rw [← List.append_assoc]
    exact Transaction.replay_append_of_apply h.replay takes.apply
  entered := by simp [h.entered, takes.carries]

/-- Its votes are those from before and those entered. -/
theorem Polled.votes_iff (h : Polled history t ballot entries t')
    (before : Transaction.replay history = .ok t) :
    t'.votes.get? p = some v ↔ t.votes.get? p = some v ∨ (p, v) ∈ ballot := by
  rw [(Transaction.summarizes_of_replay h.replay).votes,
    (Transaction.summarizes_of_replay before).votes, List.map_append, List.mem_append, h.entered]
  simp

theorem Polled.wellFormed (h : Polled history t ballot entries t') : t'.WellFormed :=
  Transaction.wellFormed_of_replay h.replay

/-- What is decided then: to commit if every participant has assented. -/
theorem Polled.tally_eq_commit_iff (h : Polled history t ballot entries t')
    (before : Transaction.replay history = .ok t) :
    t'.tally.getD .abort = .commit ↔ ∀ p, t.participants.contains p = true →
      t.votes.get? p = some .yes ∨ (p, .yes) ∈ ballot := by
  have decides : t'.tally.getD .abort = .commit ↔ t'.tally = some .commit := by
    cases t'.tally <;> simp
  rw [decides, Transaction.tally_eq_commit_iff h.wellFormed.voters, h.participants]
  simp only [h.votes_iff before]

/-- The decision as it is entered. -/
theorem Polled.meets_decide (h : Polled history t ballot (stored said) t')
    {ok : Decision × Transaction → Memory → List (Exchange self.role) → Prop}
    {err : CommitError → Memory → List (Exchange self.role) → Prop}
    (decided : ∀ d t'' memory' said', d = t'.tally.getD .abort →
      Transaction.replay (history ++ stored said') = .ok t'' →
      (stored said').map Entry.payload =
        ballot.map (fun pv => .vote pv.1 pv.2) ++ [.decision d] →
      ok (d, t'') memory' said') :
    (self.decide t').Meets (self.polling t replies arrivals) ok err memory said := by
  have advances := h.wellFormed.advances_decision h.preparing
  rw [decide, Action.meets_bind]
  refine meets_transition_hearing advances .now (fun time e takes => ?_)
    (fun time e memory' takes => ?_) fun time e failure memory' takes told => ?_
  · exact .decision takes.actor (takes.transaction.trans h.id) takes.carries
  · refine decided _ _ memory' _ rfl ?_ ?_
    · rw [stored_append, stored_stepping_ok, ← List.append_assoc]
      exact Transaction.replay_append_of_apply h.replay takes.apply
    · simp [h.entered, takes.carries]
  · cases told

end Polled

/-! ## Votes that are being collected -/

/-- Those who have been heard have assented, and everybody else is awaited. -/
structure Counting (history : List Entry) (t : Transaction)
    (replies : ProcessId → Except TransportError Vote) (arrivals heard rest : List ProcessId)
    (awaited : List ProcessId) (entries : List Entry) (t' : Transaction) : Prop
    extends Polled history t (heard.map (·, .yes)) entries t' where
  /-- Of those who arrive some have been heard. -/
  split : arrivals = heard ++ rest
  /-- They have assented. -/
  assented : ∀ p ∈ heard, replies p = .ok .yes
  /-- Who is awaited has not voted. -/
  awaits : AwaitsVotes t' awaited
  /-- It is everybody whose vote had been missing and who has not been heard. -/
  awaited_iff : ∀ p, p ∈ awaited ↔ p ∈ t.pendingVotes ∧ p ∉ heard

section Counting

variable {awaited : List ProcessId} {entries : List Entry}

theorem Counting.start (replay : Transaction.replay history = .ok t)
    (preparing : t.state = .preparing) :
    Counting history t replies arrivals [] arrivals t.pendingVotes [] t where
  toPolled := .start replay preparing
  split := rfl
  assented := by simp
  awaits := awaitsVotes_pending t
  awaited_iff := by simp

/-- The votes of those who have been heard come before those of the rest. -/
theorem Counting.counted_eq
    (h : Counting history t replies arrivals heard rest awaited entries t') :
    counted replies arrivals = heard.map (·, .yes) ++ counted replies rest := by
  rw [h.split, counted_append h.assented]

/-- If none of the rest is to be entered, all votes have been. -/
theorem Counting.polled (h : Counting history t replies arrivals heard rest awaited entries t')
    (none : counted replies rest = []) :
    Polled history t (counted replies arrivals) entries t' := by
  rw [h.counted_eq, none, List.append_nil]
  exact h.toPolled

/-- Who is to be heard next is who arrives next. -/
theorem Counting.find?_eq_head?
    (h : Counting history t replies arrivals heard rest awaited entries t')
    (nodup : arrivals.Nodup) (pending : ∀ p ∈ arrivals, p ∈ t.pendingVotes) :
    arrivals.find? (fun p => p ∈ awaited) = rest.head? := by
  rw [h.split, List.nodup_append'] at nodup
  have past : heard.find? (fun p => p ∈ awaited) = none := by
    refine List.find?_eq_none.2 fun p hp => ?_
    simpa using fun awaits => ((h.awaited_iff p).1 awaits).2 hp
  rw [h.split, List.find?_append, past, Option.none_or]
  cases rest with
  | nil => rfl
  | cons p rest =>
    have arrives : p ∈ arrivals := h.split ▸ List.mem_append_right _ (.head _)
    have new : p ∉ heard := fun old => nodup.2.2 old (.head _)
    exact List.find?_cons_of_pos (by simpa using (h.awaited_iff p).2 ⟨pending p arrives, new⟩)

/-- Once everybody has been heard nobody else arrives. -/
theorem Counting.rest_eq_nil (h : Counting history t replies arrivals heard rest [] entries t')
    (nodup : arrivals.Nodup) (pending : ∀ p ∈ arrivals, p ∈ t.pendingVotes) : rest = [] := by
  have next := h.find?_eq_head? nodup pending
  rw [List.find?_eq_none.2 (by simp)] at next
  exact List.head?_eq_none_iff.1 next.symm

/-- One more assent is entered. -/
theorem Counting.assent
    (h : Counting history t replies arrivals heard (p :: rest) awaited entries t')
    (said : replies p = .ok .yes) {e : Entry} (takes : self.Takes t' .preparing (.vote p .yes) e) :
    Counting history t replies arrivals (heard ++ [p]) rest (awaited.erase p) (entries ++ [e])
      (t'.record .preparing (.vote p .yes)) where
  toPolled := by
    rw [List.map_append]
    exact h.toPolled.vote takes
  split := by rw [h.split, List.append_assoc]; rfl
  assented q hq := by
    rcases List.mem_append.1 hq with hq | hq
    · exact h.assented q hq
    · rw [List.mem_singleton.1 hq, said]
  awaits := h.awaits.record
  awaited_iff q := by
    rw [h.awaits.nodup.mem_erase_iff, h.awaited_iff, List.mem_append, List.mem_singleton]
    tauto

/-- Votes are collected until everybody has been heard, somebody refuses or gives no vote, or nobody
else arrives. -/
theorem Counting.meets_collectVotes {outstanding : ℕ}
    {ok : Transaction → Memory → List (Exchange self.role) → Prop}
    {err : CommitError → Memory → List (Exchange self.role) → Prop}
    (h : Counting history t replies arrivals heard rest awaited (stored said) t')
    (nodup : arrivals.Nodup) (pending : ∀ p ∈ arrivals, p ∈ t.pendingVotes)
    (undetermined : t.tally = none) (count : awaited.length = outstanding)
    (collected : ∀ t'' memory' said',
      Polled history t (counted replies arrivals) (stored said') t'' → ok t'' memory' said') :
    (self.collectVotes outstanding awaited t').Meets (self.polling t replies arrivals) ok err memory
      said := by
  refine meets_collectVotes_by
    (I := fun outstanding awaited t' _ said' => ∃ heard rest, awaited.length = outstanding ∧
      Counting history t replies arrivals heard rest awaited (stored said') t') ?_ ?_
    ⟨heard, rest, count, h⟩
  · rintro awaited t₁ memory₁ said₁ ⟨heard, rest, none, h⟩
    obtain rfl := List.eq_nil_of_length_eq_zero none
    obtain rfl := h.rest_eq_nil nodup pending
    exact collected t₁ memory₁ said₁ (h.polled rfl)
  rintro outstanding awaited t₁ memory₁ said₁ ⟨heard, rest, count, h⟩
  refine meets_ask_hearing (by rw [h.id]; exact .await undetermined) fun reply? memory₂ told => ?_
  obtain ⟨next, result⟩ := told
  rw [h.find?_eq_head? nodup pending] at next
  -- whatever comes, nothing is stored by it
  have h : Counting history t replies arrivals heard rest awaited
      (stored (said₁ ++ [⟨_, reply?⟩])) t₁ := by
    rwa [stored_concat_of_not_append rfl]
  refine ⟨fun late => collected t₁ memory₂ _ (h.polled ?_), fun reply replied => ?_⟩
  · rw [late] at next
    rw [List.head?_eq_none_iff.1 next.symm]
    rfl
  have result := result reply replied
  rw [replied] at next
  obtain ⟨rest, rfl⟩ := List.head?_eq_some_iff.1 next.symm
  refine ⟨fun failure failed => ?_, fun vote voted => ?_⟩
  · exact collected t₁ memory₂ _ (h.polled (counted_cons_of_error (result ▸ failed)))
  have advances : t₁.Advances .preparing (.vote reply.sender vote) :=
    .vote vote h.preparing (h.awaits.member _ reply.sender_mem)
      (h.awaits.pending _ reply.sender_mem)
  generalize said₁ ++ [_] = said₂ at h ⊢
  refine meets_transition_hearing advances .now (fun time e takes => ?_)
    (fun time e memory₃ takes => ?_) fun time e failure memory₃ takes told => ?_
  · exact .vote undetermined takes.actor (takes.transaction.trans h.id) takes.carries
  · refine ⟨fun refuses => collected _ memory₃ _ ?_, fun assents => ?_⟩
    · subst refuses
      rw [h.counted_eq, counted_cons_of_no (result ▸ voted), stored_append, stored_stepping_ok]
      exact h.toPolled.vote takes
    · have yes : vote = .yes := by
        cases vote
        · rfl
        · exact absurd rfl assents
      subst yes
      refine ⟨heard ++ [reply.sender], rest, ?_, ?_⟩
      · rw [List.length_erase_of_mem reply.sender_mem, count]
        rfl
      · rw [stored_append, stored_stepping_ok]
        exact h.assent (result ▸ voted) takes
  · cases told

end Counting

/-! ## The decision -/

theorem mem_pendingVotes_iff :
    p ∈ t.pendingVotes ↔ t.participants.contains p = true ∧ t.votes.get? p = none := by
  rw [Transaction.pendingVotes, List.mem_filter, SortedSet.mem_toList_iff]
  simp [SortedMap.contains]

/-- Every participant has assented, before or by a vote that is entered, exactly if all votes from
before are assents and everybody else assents in time. -/
theorem unanimous_iff (voters : ∀ p, t.votes.contains p = true → t.participants.contains p = true)
    (pending : ∀ p ∈ arrivals, p ∈ t.pendingVotes) :
    (∀ p, t.participants.contains p = true → t.votes.get? p = some .yes ∨
      (p, .yes) ∈ if t.tally = none then counted replies arrivals else []) ↔
    (∀ p v, t.votes.get? p = some v → v = .yes) ∧
      ∀ p ∈ t.pendingVotes, p ∈ arrivals ∧ replies p = .ok .yes := by
  have entered : ∀ p, ((p, .yes) ∈ if t.tally = none then counted replies arrivals else []) →
      p ∈ arrivals ∧ replies p = .ok .yes := by
    intro p hp
    split at hp
    · exact of_mem_counted hp
    · cases hp
  constructor
  · refine fun all => ⟨fun p v voted => ?_, fun p hp => ?_⟩
    · rcases all p (voters p (SortedMap.contains_iff.2 ⟨v, voted⟩)) with yes | new
      · exact Option.some.inj (voted.symm.trans yes)
      · have unvoted := (mem_pendingVotes_iff.1 (pending p (entered p new).1)).2
        rw [voted] at unvoted
        cases unvoted
    · obtain ⟨member, unvoted⟩ := mem_pendingVotes_iff.1 hp
      rcases all p member with yes | new
      · rw [unvoted] at yes
        cases yes
      · exact entered p new
  · rintro ⟨logged, answered⟩ p member
    cases vote : t.votes.get? p with
    | some v => exact .inl (congrArg some (logged p v vote))
    | none =>
      -- somebody has not voted, and nobody has refused, so that nothing is determined
      have undetermined : t.tally = none := by
        cases tally : t.tally with
        | none => rfl
        | some d =>
          cases d with
          | commit =>
            rw [(Transaction.tally_eq_commit_iff voters).1 tally p member] at vote
            cases vote
          | abort =>
            obtain ⟨q, refused⟩ := Transaction.tally_eq_abort_iff.1 tally
            cases logged q .no refused
      rw [if_pos undetermined]
      have asked := mem_pendingVotes_iff.2 ⟨member, vote⟩
      exact .inr (mem_counted_of_unanimous (fun q hq => (answered q (pending q hq)).2)
        (answered p asked).1)

variable (self replies) in
/-- What a coordinator decides on a transaction whose votes are being collected, when entries are
stored. It does not depend on the order in which replies arrive: it is to commit exactly if the
votes entered before are assents and everybody whose vote had been missing is heard to assent in
time. If the votes from before determine it, nobody is asked and this is entered. Otherwise the
votes entered before it are those that arrive, in this order, up to and including the first refusal,
or up to the first reply that is not a vote. -/
theorem decision_ignores_order (replay : Transaction.replay history = .ok t)
    (preparing : t.state = .preparing) {arrived : List ProcessId} (once : arrived.Nodup)
    (pending : ∀ p ∈ arrived, p ∈ t.pendingVotes) :
    ∃ d, (d = .commit ↔ (∀ p v, t.votes.get? p = some v → v = .yes) ∧
        ∀ p ∈ t.pendingVotes, p ∈ arrived ∧ replies p = .ok .yes) ∧
      (∀ d', t.tally = some d' → d = d') ∧
      ∀ arrivals, arrivals.Perm arrived → ((counted replies arrivals).map Prod.fst).Nodup ∧
        ∀ deadline resuming memory,
          (do
            let t ← self.prepare t deadline resuming
            self.decide t : Step (Decision × Transaction)).Meets (self.polling t replies arrivals)
            (fun dt _ said => dt.1 = d ∧ Transaction.replay (history ++ stored said) = .ok dt.2 ∧
              (stored said).map Entry.payload =
                (if t.tally = none then
                  (counted replies arrivals).map fun pv => .vote pv.1 pv.2
                else []) ++ [.decision d])
            (fun _ _ _ => False) memory [] := by
  obtain ⟨d, commits⟩ : ∃ d : Decision, d = .commit ↔
      (∀ p v, t.votes.get? p = some v → v = .yes) ∧
        ∀ p ∈ t.pendingVotes, p ∈ arrived ∧ replies p = .ok .yes := by
    by_cases unanimous : (∀ p v, t.votes.get? p = some v → v = .yes) ∧
        ∀ p ∈ t.pendingVotes, p ∈ arrived ∧ replies p = .ok .yes
    · exact ⟨.commit, by simpa using unanimous⟩
    · exact ⟨.abort, by simpa using unanimous⟩
  -- whoever has arrived in whichever order, this is what the votes determine then
  have verdict : ∀ arrivals, arrivals.Perm arrived → ∀ {entries t'},
      Polled history t (if t.tally = none then counted replies arrivals else []) entries t' →
      t'.tally.getD .abort = d := by
    intro arrivals same entries t' polled
    have voters := (Transaction.wellFormed_of_replay replay).voters
    have agrees : t'.tally.getD .abort = .commit ↔ d = .commit := by
      rw [polled.tally_eq_commit_iff replay,
        unanimous_iff voters fun p hp => pending p (same.mem_iff.1 hp), commits]
      simp only [same.mem_iff]
    cases d <;> cases decided : t'.tally.getD .abort <;> simp [decided] at agrees ⊢
  refine ⟨d, commits, fun d' determined => ?_, fun arrivals same => ?_⟩
  · have polled := Polled.start replay preparing
    have := verdict arrived (.refl _) (by simpa [determined] using polled)
    simpa [determined] using this.symm
  refine ⟨nodup_counted (same.nodup_iff.2 once), fun deadline resuming memory => ?_⟩
  rw [Action.meets_bind]
  have pending : ∀ p ∈ arrivals, p ∈ t.pendingVotes := fun p hp => pending p (same.mem_iff.1 hp)
  -- what has been polled is decided upon
  have decides : ∀ t' memory' said',
      Polled history t (if t.tally = none then counted replies arrivals else []) (stored said') t' →
      (self.decide t').Meets (self.polling t replies arrivals)
        (fun dt _ said => dt.1 = d ∧ Transaction.replay (history ++ stored said) = .ok dt.2 ∧
          (stored said).map Entry.payload =
            (if t.tally = none then
              (counted replies arrivals).map fun pv => .vote pv.1 pv.2
            else []) ++ [.decision d])
        (fun _ _ _ => False) memory' said' := by
    intro t' memory' said' polled
    refine polled.meets_decide ?_
    rintro _ t'' memory'' said'' rfl replay' entered
    rw [verdict arrivals same polled] at entered ⊢
    refine ⟨rfl, replay', entered.trans ?_⟩
    split <;> rfl
  refine meets_prepare_of (fun determined => ?_) fun undetermined => ?_
  · refine decides t memory [] ?_
    rw [if_neg determined]
    exact .start replay preparing
  refine meets_ask_hearing .now fun now memory₁ _ => ?_
  refine meets_ask_hearing (.request undetermined) fun start memory₂ _ => ?_
  refine meets_within.2 ⟨fun _ => ?_, fun late => .panic (.votes List.getLast?_concat late)⟩
  refine (?_ : Counting history t replies arrivals [] arrivals t.pendingVotes
    (stored _) t).meets_collectVotes (same.nodup_iff.2 once) pending undetermined rfl ?_
  · rw [stored_concat_of_not_append rfl, stored_concat_of_not_append rfl]
    exact .start replay preparing
  intro t' memory₃ said₃ polled
  refine decides t' memory₃ said₃ ?_
  rwa [if_pos undetermined]

/-! ## A divided vote -/

section Ballots

/-- Another participant. -/
abbrev partner : ProcessId := ⟨"q"⟩

/-- A transaction of two, whose votes are being collected. -/
def pairBallot : Transaction where
  id := deal
  participants := SortedSet.ofList [party, partner]
  operations := ∅
  state := .preparing
  createdAt := .epoch
  deadline := .epoch

/-- Its history. -/
def pairHistory : List Entry :=
  [{ transaction := deal, actor := (default : Coordinator).id, previous := none, state := .init,
     payload := .begin [party, partner] ∅ .epoch, time := .epoch },
   { transaction := deal, actor := (default : Coordinator).id, previous := some .init,
     state := .preparing, payload := .none, time := .epoch }]

/-- One assents and the other refuses. -/
def divided (p : ProcessId) : Except TransportError Vote :=
  .ok (if p = party then .yes else .no)

/-- A coordinator that hears the assent first enters both votes, one that hears the refusal first
enters only that, and both decide to abort. -/
theorem decision_ignores_order_divided :
    Transaction.replay pairHistory = .ok pairBallot ∧ pairBallot.state = .preparing ∧
    (∀ p ∈ [party, partner], p ∈ pairBallot.pendingVotes) ∧
    ∀ ao ∈ [([party, partner], [Payload.vote party .yes, .vote partner .no, .decision .abort]),
      ([partner, party], [.vote partner .no, .decision .abort])],
      ((do
        let t ← (default : Coordinator).prepare pairBallot .epoch false
        (default : Coordinator).decide t) : Step (Decision × Transaction)).Meets
        ((default : Coordinator).polling pairBallot divided ao.1)
        (fun dt _ said => dt.1 = .abort ∧ (stored said).map Entry.payload = ao.2)
        (fun _ _ _ => False) ∅ [] := by
  have replay : Transaction.replay pairHistory = .ok pairBallot := by decide +kernel
  have pending : ∀ p ∈ [party, partner], p ∈ pairBallot.pendingVotes := by decide +kernel
  have undetermined : pairBallot.tally = none := by decide +kernel
  obtain ⟨d, commits, -, orders⟩ :=
    decision_ignores_order default divided replay rfl (by decide) pending
  obtain rfl : d = .abort := by
    cases d
    · cases ((commits.1 rfl).2 partner (pending _ (by decide))).2
    · rfl
  refine ⟨replay, rfl, pending, fun ao either => ?_⟩
  have arrives : ao.1.Perm [party, partner] ∧
      (counted divided ao.1).map (fun pv => .vote pv.1 pv.2) ++ [.decision .abort] = ao.2 := by
    revert ao
    decide
  refine ((orders ao.1 arrives.1).2 .epoch false ∅).imp_ok ?_
  rintro dt memory said ⟨decided, -, entered⟩
  rw [if_pos undetermined] at entered
  exact ⟨decided, entered.trans arrives.2⟩

end Ballots

end AtomicCommit.Coordinator

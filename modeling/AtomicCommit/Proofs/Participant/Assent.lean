import AtomicCommit.Proofs.Participant.Redelivery

/-!
# What stands behind an assent

Who votes to commit has prepared the transaction or committed it, and accepts the commit. But a vote
is repeated for ever, and the abort of a prepared transaction does not withdraw it: whoever asks
after that is told that the participant assents, and the commit is refused. The vote on a
transaction that was aborted in any other way is a refusal.

## Main definitions

* `Participant.Upheld`: a transaction is prepared or committed.
* `Participant.AbortedAfterAssent`: it was aborted after it had been prepared.

## Main results

* `Participant.assents_iff`: when the vote on a known transaction is an assent.
* `Participant.assent_is_upheld_until_abort`: what stands behind a vote.
* `Participant.assent_after_abort`: a vote that nothing stands behind.
-/

namespace AtomicCommit.Participant

/-- A transaction is prepared or committed. -/
def Upheld (p : ProcessId) (log : List Entry) (tx : TransactionId) : Prop :=
  Log.lastState? log p tx = some .prepared ∨ Log.lastState? log p tx = some .committed

/-- A transaction was aborted after it had been prepared. -/
def AbortedAfterAssent (p : ProcessId) (log : List Entry) (tx : TransactionId) : Prop :=
  ∃ e e' coordinator payload, Log.history log p tx = [e, e'] ∧
    e.Takes tx .idle .prepared (.prepared coordinator payload) ∧
    e'.Takes tx .prepared .aborted (.resolved .abort)

variable {self : ProcessId} {n n' : Node (role self)} {call : ℕ} {tx : TransactionId}
  {log log' : List Entry} {r : Record}

/-! ## Votes and states -/

theorem upheld_iff (known : Sees self log tx (some r)) :
    Upheld self log tx ↔ r.state = .prepared ∨ r.state = .resolved .commit := by
  rw [Upheld, known.lastState?]
  cases r.state <;> simp [ParticipantState.toState, ParticipantState.resolved]

/-- Who knows a transaction as aborted has applied the abort. -/
theorem aborted_iff (known : Sees self log tx (some r)) :
    Log.lastState? log self tx = some .aborted ↔ r.state = .resolved .abort := by
  rw [known.lastState?]
  cases r.state <;> simp [ParticipantState.toState, ParticipantState.resolved]

theorem abortedAfterAssent_iff (known : Sees self log tx (some r)) :
    AbortedAfterAssent self log tx ↔ r.vote = some .yes ∧ r.state = .resolved .abort := by
  have history : Record.History tx (Log.history log self tx) r := known
  constructor
  · rintro ⟨e, e', coordinator, payload, whole, prepares, aborts⟩
    rw [whole] at history
    rw [Record.History.unique (.resolved prepares (d := .abort) aborts) history]
    exact ⟨rfl, rfl⟩
  · rintro ⟨yes, aborted⟩
    unfold AbortedAfterAssent
    generalize Log.history log self tx = es at history
    cases history with
    | prepared _ => cases aborted
    | @resolved e e' coordinator payload d prepares resolves =>
      cases d with
      | commit => cases aborted
      | abort => exact ⟨e, e', coordinator, payload, rfl, prepares, resolves⟩
    | refused _ => cases yes
    | early _ => cases yes

/-- The vote on a known transaction is an assent just if it is prepared or committed, or was
aborted after it had been prepared. -/
theorem assents_iff (known : Sees self log tx (some r)) :
    r.vote.getD .no = .yes ↔ Upheld self log tx ∨ AbortedAfterAssent self log tx := by
  have history : Record.History tx (Log.history log self tx) r := known
  have assents : r.vote.getD .no = .yes ↔ r.vote = some .yes := by
    cases r.vote <;> simp
  rw [assents, upheld_iff known, abortedAfterAssent_iff known]
  constructor
  · intro yes
    rcases history.prepared_or_resolved with prepared | ⟨d, resolved⟩
    · exact .inl (.inl prepared)
    · cases d with
      | commit => exact .inl (.inr resolved)
      | abort => exact .inr ⟨yes, resolved⟩
  · rintro ((prepared | committed) | ⟨yes, -⟩)
    · exact history.vote_of_prepared prepared
    · by_contra no
      cases (history.aborted_of_ne_yes no).symm.trans committed
    · exact yes

/-! ## What stands behind a vote -/

/-- A vote that is given is an assent just if the transaction is prepared or committed then, or was
aborted after it had been prepared. A commit that is told while the transaction is prepared or
committed is acknowledged, unless something fails. Once it is aborted, the commit is refused
whenever it is told, and neither log nor memory changes; whoever asks for the vote is told an assent
if the transaction was prepared before it was aborted, and a refusal otherwise. What a recovery has
found in the log is assumed to be left to it until it asks for the first decision
(`recoveryLocks`). -/
theorem assent_is_upheld_until_abort {p : ProcessId} {n : Node (role p)} (h : Reachable p n)
    (tx : TransactionId) :
    (∀ call message v log, message.transaction = tx →
      ⟨call, .returned (.handlePrepare message) (.ok v), log⟩ ∈ n.past →
      (v = .yes ↔ Upheld p log tx ∨ AbortedAfterAssent p log tx)) ∧
    (Upheld p n.log tx → Accepts n tx .commit) ∧
    (∀ call log result log', ⟨call, .started (.handleDecision tx .commit), log⟩ ∈ n.past →
      Upheld p log tx → (∀ m ∈ momentsOf n.past call, m.Hears (Good p)) →
      ⟨call, .returned (.handleDecision tx .commit) result, log'⟩ ∈ n.past → result = .ok ()) ∧
    (Log.lastState? n.log p tx = some .aborted → ∀ n', Leads p n n' →
      OnlyTells p n n' (.handleDecision tx .commit) tx
        (.error (.invalidState (.notApplicable tx .aborted p .commit)))
        (fun failure => .error (.log failure)) ∧
      ∀ message, message.transaction = tx →
        (AbortedAfterAssent p n.log tx → OnlyTells p n n' (.handlePrepare message) tx (.ok .yes)
          (fun failure => .error (.log failure))) ∧
        (¬AbortedAfterAssent p n.log tx → OnlyTells p n n' (.handlePrepare message) tx (.ok .no)
          (fun failure => .error (.log failure)))) := by
  -- who has prepared or committed a transaction may commit it
  have agrees : ∀ log, Upheld p log tx → ∀ r, Sees p log tx (some r) →
      r.state = .prepared ∨ r.state = .resolved .commit :=
    fun log upheld r known => (upheld_iff known).1 upheld
  refine ⟨?_, ?_, ?_, ?_⟩
  · rintro call message v log rfl returned
    obtain ⟨⟨before, justified⟩, -⟩ := h.holds.chronicle.returned returned
    obtain ⟨r, known, voted⟩ := voteLogged_of_returned justified
    rw [← voted, assents_iff known]
  · exact fun upheld => accepts_of_agrees h (agrees n.log upheld)
  · exact fun call log result log' started upheld good returned =>
      acknowledged_of_good h started (agrees log upheld) good returned
  · intro aborted n' leads
    obtain ⟨found, sees⟩ := Kept.sees (h.holds.kept tx)
    cases found with
    | none =>
      rw [Log.lastState?, show Log.history n.log p tx = [] from sees] at aborted
      cases aborted
    | some r =>
      have resolved := (aborted_iff sees).1 aborted
      have applied : Applied p n.log tx .abort := ⟨r, sees, resolved⟩
      refine ⟨applied.onlyTells_other h (by decide) leads, ?_⟩
      rintro message rfl
      have told : ∀ v, r.vote.getD .no = v → OnlyTells p n n' (.handlePrepare message)
          message.transaction (.ok v) (fun failure => .error (.log failure)) := by
        intro v voted
        refine onlyTells_of_vote h sees (tells_handlePrepare message) ?_ leads
        exact fun r' same => congrArg Except.ok (same ▸ voted)
      constructor
      · exact fun after => told .yes ((assents_iff sees).2 (.inr after))
      · intro before
        have fallen : ¬Upheld p n.log message.transaction := by simp [Upheld, aborted]
        have refuses := mt (assents_iff sees).1 (not_or.2 ⟨fallen, before⟩)
        cases voted : r.vote.getD .no with
        | yes => exact absurd voted refuses
        | no => exact told .no voted

/-! ## A vote that is asked for after the abort -/

section Repeats

/-- A participant that has voted to commit is told to abort. -/
def withdrawnRun : Node (role cohort) :=
  votedRun.begins { outside := willing cohort } 1 (.handleDecision proposal.transaction .abort)

/-- It is asked for its vote again. -/
def reassertedRun : Node (role cohort) :=
  withdrawnRun.begins { outside := willing cohort } 2 (.handlePrepare proposal)

/-- It is told to commit. -/
def disappointedRun : Node (role cohort) :=
  reassertedRun.begins { outside := willing cohort } 3
    (.handleDecision proposal.transaction .commit)

theorem reachable_withdrawnRun : Reachable cohort withdrawnRun :=
  begins_of_rested attains reachable_votedRun rested_votedRun

theorem rested_withdrawnRun : withdrawnRun.Rested 2 := rested_votedRun.begins rfl

theorem leads_disappointedRun : Leads cohort withdrawnRun disappointedRun := by
  have rested : withdrawnRun.Rested 2 := rested_withdrawnRun
  have rested' : reassertedRun.Rested 3 := rested.begins rfl
  have reasserts : Leads cohort withdrawnRun reassertedRun :=
    begins_of_rested Leads.attains .refl rested
  exact begins_of_rested Leads.attains reasserts rested'

/-- Who was told to abort what it had prepared tells that it assents, and refuses the commit. -/
theorem assent_is_upheld_until_abort_disappointedRun :
    Reachable cohort withdrawnRun ∧ Leads cohort withdrawnRun disappointedRun ∧
    AbortedAfterAssent cohort withdrawnRun.log proposal.transaction ∧
    LooksUp cohort 2 (.handlePrepare proposal) proposal.transaction (.ok .yes)
      (fun failure => .error (.log failure)) (momentsOf disappointedRun.past 2) ∧
    LooksUp cohort 3 (.handleDecision proposal.transaction .commit) proposal.transaction
      (.error (.invalidState (.notApplicable proposal.transaction .aborted cohort .commit)))
      (fun failure => .error (.log failure)) (momentsOf disappointedRun.past 3) ∧
    Accepts votedRun proposal.transaction .commit := by
  obtain ⟨-, -, -, aborted⟩ :=
    assent_is_upheld_until_abort reachable_withdrawnRun proposal.transaction
  obtain ⟨refuses, tells⟩ := aborted rfl _ leads_disappointedRun
  obtain ⟨-, accepts, -⟩ := assent_is_upheld_until_abort reachable_votedRun proposal.transaction
  have after : AbortedAfterAssent cohort withdrawnRun.log proposal.transaction :=
    ⟨_, _, _, _, rfl, ⟨rfl, rfl, rfl, rfl⟩, ⟨rfl, rfl, rfl, rfl⟩⟩
  exact ⟨reachable_withdrawnRun, leads_disappointedRun, after,
    ((tells proposal rfl).1 after).trace 2
      (startsSince_of_head (rested_withdrawnRun.new le_rfl) rfl),
    refuses.trace 3 (startsSince_of_head (rested_withdrawnRun.new (by decide)) rfl),
    accepts (.inl rfl)⟩

/-- A participant may answer that it assents when the transaction is aborted, and then refuse the
commit. -/
theorem assent_after_abort :
    Reachable cohort disappointedRun ∧
    (∃ log, ⟨2, .returned (.handlePrepare proposal) (.ok .yes), log⟩ ∈ disappointedRun.past ∧
      Log.lastState? log cohort proposal.transaction = some .aborted) ∧
    JustEnded disappointedRun 3 (.handleDecision proposal.transaction .commit)
      (.error (.invalidState (.notApplicable proposal.transaction .aborted cohort .commit))) := by
  have last : (momentsOf disappointedRun.past 2).getLast? =
      some ⟨2, .returned (.handlePrepare proposal) (.ok .yes), withdrawnRun.log⟩ := rfl
  exact ⟨reachable_withdrawnRun.leads leads_disappointedRun,
    ⟨withdrawnRun.log, mem_of_mem_momentsOf (List.mem_of_getLast? last), rfl⟩,
    disappointedRun.log, by rfl⟩

end Repeats

end AtomicCommit.Participant

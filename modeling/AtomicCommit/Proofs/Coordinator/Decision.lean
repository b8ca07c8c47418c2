import AtomicCommit.Proofs.Coordinator.Smooth

/-!
# One decision for ever

A coordinator logs at most one decision for a transaction, whatever fails and however often it
restarts, and all that it says of the decision is what the log says.

## Main results

* `Coordinator.decision_is_final`: one decision is logged, and nothing else is ever said.
-/

namespace AtomicCommit.Coordinator

variable {self : Coordinator}

/-- A log that replays holds at most one decision. -/
theorem length_decisions_le {n : Node self.role} (holds : self.discipline.Holds n)
    (tx : TransactionId) :
    ((Log.history n.log self.id tx).filter fun e => e.payload.isDecision).length ≤ 1 := by
  cases holds.kept tx with
  | unknown empty _ =>
    dsimp only at empty
    simp [empty]
  | @known t id replay _ _ =>
    refine (Transaction.summarizes_of_replay replay).once.trans ?_
    cases t.decision <;> simp

variable (self) in
/-- A moment says that the decision on a transaction is `d`: a query is so answered once the
transaction has begun, the decision is sent, or its outcome is returned. -/
def Announces (m : Moment self.role) (tx : TransactionId) (d : Decision) : Prop :=
  self.AnswersQuery m tx (some d) ∧ self.BeginLogged m.log tx ∨ self.SendsDecision m tx d ∨
    self.ReturnsOutcome m tx d.outcome

theorem Decision.outcome_injective {d d' : Decision} (h : d.outcome = d'.outcome) : d = d' := by
  cases d <;> cases d' <;> simp_all [Decision.outcome]

/-- What is announced is logged. -/
theorem Announces.decisionLogged {past : List (Moment self.role)} {m : Moment self.role}
    {tx : TransactionId} {d : Decision} (h : self.Announces m tx d)
    (justified : self.discipline.Justified past m) : self.DecisionLogged m.log tx d := by
  rcases h with ⟨h, begun⟩ | h | h
  · rcases h.logged justified with ⟨empty, -⟩ | ⟨t, rfl, logged, decided⟩
    · exact absurd empty begun.history_ne_nil
    · exact logged.decision_iff.2 decided.symm
  · obtain ⟨t, rfl, logged, decided⟩ := h.logged justified
    exact logged.decision_iff.2 decided
  · obtain ⟨t, d', rfl, logged, decided, same⟩ := h.logged justified
    rw [Decision.outcome_injective same]
    exact logged.decision_iff.2 decided

/-- Once a decision is logged a query is answered with it. -/
theorem AnswersQuery.eq_of_decisionLogged {past : List (Moment self.role)} {m : Moment self.role}
    {tx : TransactionId} {answer : Option Decision} {d : Decision}
    (h : self.AnswersQuery m tx answer) (justified : self.discipline.Justified past m)
    (decided : self.DecisionLogged m.log tx d) : answer = some d := by
  rcases h.logged justified with ⟨empty, -⟩ | ⟨t, rfl, logged, rfl⟩
  · obtain ⟨e, he, -⟩ := decided
    simp [empty] at he
  · exact logged.decision_iff.1 decided

/-- In every run a transaction has one decision for ever. The log holds at most one entry that
decides it; whoever is told a decision, by an answer to a query after the transaction has begun, by
a message or by the outcome, is told the one in the log; and no later answer takes it back. -/
theorem decision_is_final {n : Node self.role} (h : self.Reachable n) (tx : TransactionId) :
    ((Log.history n.log self.id tx).filter fun e => e.payload.isDecision).length ≤ 1 ∧
    (∀ m ∈ n.past, ∀ d, self.Announces m tx d → self.DecisionLogged m.log tx d ∧
      ∀ d', self.DecisionLogged n.log tx d' → d' = d) ∧
    n.past.Pairwise fun m m' => ∀ d answer, self.AnswersQuery m tx (some d) →
      self.BeginLogged m.log tx → self.AnswersQuery m' tx answer → answer = some d := by
  have holds := h.holds
  refine ⟨length_decisions_le holds tx, ?_, ?_⟩
  · intro m hm d announces
    obtain ⟨before, -, -, -, -, justified⟩ := holds.chronicle.justified hm
    have logged := announces.decisionLogged justified
    exact ⟨logged, fun d' => (logged.mono (holds.grown m hm)).unique holds.toSound⟩
  · refine holds.chronicle.pairwise ?_
    intro before m' chronicle _ justified' m hm grown d answer answers begun answers'
    obtain ⟨before', -, -, -, -, justified⟩ := chronicle.justified hm
    have logged := Announces.decisionLogged (.inl ⟨answers, begun⟩) justified
    exact answers'.eq_of_decisionLogged justified' (logged.mono grown)

/-- In the run of a transaction that commits, its decision is announced in every way, and no other
one is. -/
theorem decision_is_final_queriedRun :
    (default : Coordinator).Reachable queriedRun ∧
    (∃ m ∈ queriedRun.past, (default : Coordinator).AnswersQuery m deal (some .commit)) ∧
    (∃ m ∈ queriedRun.past, (default : Coordinator).SendsDecision m deal .commit) ∧
    (∃ m ∈ queriedRun.past, (default : Coordinator).ReturnsOutcome m deal .committed) ∧
    (default : Coordinator).DecisionLogged queriedRun.log deal .commit ∧
    ∀ m ∈ queriedRun.past, ∀ d, (default : Coordinator).Announces m deal d → d = .commit := by
  have logged : (default : Coordinator).DecisionLogged queriedRun.log deal .commit := by
    decide +kernel
  have final := decision_is_final reachable_queriedRun deal
  refine ⟨reachable_queriedRun, by decide +kernel, by decide +kernel, by decide +kernel, logged, ?_⟩
  intro m hm d announces
  exact ((final.2.1 m hm d announces).2 .commit logged).symm

end AtomicCommit.Coordinator

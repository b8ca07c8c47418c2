import AtomicCommit.Proofs.System.Smooth

/-!
# Atomicity

No two participants of a system ever end a transaction differently, whatever is lost, delayed or
repeated on the way and whoever restarts when; and where a transaction is committed all its
participants have promised to commit it.

## Main results

* `System.transactions_are_atomic`: no transaction is committed here and aborted there.
-/

namespace AtomicCommit

namespace Participant

variable {p : ProcessId}

/-- The log has the transaction in a state. -/
def StateLogged (p : ProcessId) (log : List Entry) (tx : TransactionId) (state : ParticipantState) :
    Prop :=
  ∃ e ∈ Log.history log p tx, e.state = state.toState

instance (p : ProcessId) (log : List Entry) (tx : TransactionId) (state : ParticipantState) :
    Decidable (StateLogged p log tx state) :=
  inferInstanceAs (Decidable (∃ e ∈ Log.history log p tx, _))

/-- A vote has been given, in answer to PREPARE or when it was asked for. -/
def SaysVote (past : List (Moment (role p))) (tx : TransactionId) (v : Vote) : Prop :=
  ∃ call log,
    (∃ message, message.transaction = tx ∧
      ⟨call, .returned (.handlePrepare message) (.ok v), log⟩ ∈ past) ∨
    ⟨call, .returned (.queryVote tx) (.ok (some v)), log⟩ ∈ past

/-- The participant has voted not to commit, or has logged that it refuses. -/
def Refuses (n : Node (role p)) (tx : TransactionId) : Prop :=
  SaysVote n.past tx .no ∨
    ∃ e ∈ Log.history n.log p tx, ∃ coordinator, e.payload = .voted coordinator .no

variable {log : List Entry} {tx : TransactionId}

/-- Who has voted to commit has a record that says so. -/
theorem VoteLogged.yes (h : VoteLogged p log tx .yes) :
    ∃ r, Sees p log tx (some r) ∧ r.vote = some .yes := by
  obtain ⟨r, known, voted⟩ := h
  refine ⟨r, known, ?_⟩
  cases vote : r.vote with
  | none => simp [vote] at voted
  | some v => simpa [vote] using voted

/-- Who has voted to commit has prepared. -/
theorem VoteLogged.prepared (h : VoteLogged p log tx .yes) : StateLogged p log tx .prepared := by
  obtain ⟨r, known, yes⟩ := h.yes
  exact (Record.History.prepared_iff known).2 yes

/-- A state of resolution in the log is the state of the record. -/
theorem StateLogged.applied {n : Node (role p)} (holds : (discipline p).Holds n) {d : Decision}
    (h : StateLogged p n.log tx (.resolved d)) : Applied p n.log tx d := by
  obtain ⟨found, sees⟩ := Kept.sees (holds.kept tx)
  cases found with
  | none =>
    obtain ⟨e, he, -⟩ := h
    rw [show Log.history n.log p tx = [] from sees] at he
    cases he
  | some r => exact ⟨r, sees, (Record.History.resolved_iff sees).1 h⟩

end Participant

namespace System

open Participant (StateLogged Refuses)
open Coordinator (deal party)

variable {c : Coordinator} {s : System c} {tx : TransactionId} {p q : ProcessId}

/-- Who has voted takes part. -/
theorem Linked.takesPart_of_voted (linked : Linked s) {e : Entry} {coordinator : ProcessId}
    (he : e ∈ Log.history (s.participants p).log p tx)
    (voted : Record.coordinatorOf? e.payload = some (some coordinator)) :
    c.TakesPart s.coordinator.log tx p :=
  have bound := linked.participants p
  System.takesPart_of_voted linked.coordinator.toSound bound.holds bound.requested he voted

/-- A decision that has been applied is the logged one, or is an abort by who has refused. -/
theorem Linked.decisionLogged_of_applied (linked : Linked s) {d : Decision}
    (h : Participant.Applied p (s.participants p).log tx d) :
    c.DecisionLogged s.coordinator.log tx d ∨ d = .abort ∧
      Participant.VoteLogged p (s.participants p).log tx .no ∧
        c.TakesPart s.coordinator.log tx p := by
  have bound := linked.participants p
  obtain ⟨r, known, resolved⟩ := h
  rcases Record.History.exists_of_resolved known resolved with
    ⟨e, he, payload⟩ | ⟨rfl, no, e, he, coordinator, payload⟩
  · obtain ⟨call, told⟩ := Participant.told_of_resolved bound.holds.toSound he payload
    exact .inl (bound.told call tx d told).2
  · have voted : Record.coordinatorOf? e.payload = some (some coordinator) := by
      rw [payload]
      rfl
    exact .inr ⟨rfl, ⟨r, known, by rw [no]; rfl⟩, linked.takesPart_of_voted he voted⟩

/-- A transaction that is committed somewhere has been decided so. -/
theorem Linked.decisionLogged_of_committed (linked : Linked s)
    (h : StateLogged p (s.participants p).log tx .committed) :
    c.DecisionLogged s.coordinator.log tx .commit := by
  have applied := StateLogged.applied (linked.participants p).holds (d := .commit) h
  rcases linked.decisionLogged_of_applied applied with decided | ⟨commits, -⟩
  · exact decided
  · cases commits

/-- Who has committed takes part. -/
theorem Linked.takesPart_of_committed (linked : Linked s)
    (h : StateLogged p (s.participants p).log tx .committed) :
    c.TakesPart s.coordinator.log tx p := by
  obtain ⟨r, known, committed⟩ :=
    StateLogged.applied (linked.participants p).holds (d := .commit) h
  have yes : r.vote = some .yes := by
    by_contra no
    have aborted := Record.History.aborted_of_ne_yes known no
    rw [committed] at aborted
    cases aborted
  obtain ⟨e, he, coordinator, payload, takes, -⟩ := Record.History.exists_prepared known yes
  have voted : Record.coordinatorOf? e.payload = some (some coordinator) := by
    rw [takes.payload]
    rfl
  exact linked.takesPart_of_voted he voted

/-- Who takes part in a transaction that is to be committed does not abort it. -/
theorem Linked.not_aborted (linked : Linked s)
    (decided : c.DecisionLogged s.coordinator.log tx .commit) :
    ¬StateLogged p (s.participants p).log tx .aborted := by
  intro h
  have applied := StateLogged.applied (linked.participants p).holds (d := .abort) h
  rcases linked.decisionLogged_of_applied applied with aborts | ⟨-, no, part⟩
  · cases decided.unique linked.coordinator.toSound aborts
  · cases no.unique (linked.yes_of_commit decided part)

/-- Who has voted to commit has never refused. -/
theorem Bound.not_refuses {n : Node c.role} {n' : Node (Participant.role p)} (bound : Bound n p n')
    (yes : Participant.VoteLogged p n'.log tx .yes) : ¬Refuses n' tx := by
  rintro (⟨call, log, ⟨message, rfl, given⟩ | told⟩ | ⟨e, he, coordinator, payload⟩)
  · cases yes.unique (bound.voteLogged_of_returned given)
  · cases yes.unique (bound.voteLogged_of_told told)
  · obtain ⟨r, known, yes⟩ := yes.yes
    exact Record.History.payload_ne_voted known yes he payload

/-- In every run of a system no transaction is committed by one participant and aborted by another;
and once it is committed by anyone it has begun, who has committed takes part in it, and everyone
who takes part has prepared and never refused. Of the recoveries of participants the runs assume
what `Participant.recoveryLocks` says. -/
theorem transactions_are_atomic (h : s.Reachable) (tx : TransactionId) :
    (∀ p q, StateLogged p (s.participants p).log tx .committed →
      ¬StateLogged q (s.participants q).log tx .aborted) ∧
    ∀ p, StateLogged p (s.participants p).log tx .committed →
      c.TakesPart s.coordinator.log tx p ∧
        ∀ q, c.TakesPart s.coordinator.log tx q →
          StateLogged q (s.participants q).log tx .prepared ∧ ¬Refuses (s.participants q) tx := by
  have linked := h.linked
  refine ⟨?_, ?_⟩
  · intro p q committed
    exact linked.not_aborted (linked.decisionLogged_of_committed committed)
  · intro p committed
    refine ⟨linked.takesPart_of_committed committed, fun q part => ?_⟩
    have yes := linked.yes_of_commit (linked.decisionLogged_of_committed committed) part
    exact ⟨yes.prepared, (linked.participants q).not_refuses yes⟩

/-- In the run of a transaction that commits, nobody has aborted it. -/
theorem transactions_are_atomic_doneSystem :
    doneSystem.Reachable ∧
    StateLogged party (doneSystem.participants party).log deal .committed ∧
    (∀ q, ¬StateLogged q (doneSystem.participants q).log deal .aborted) ∧
    (default : Coordinator).TakesPart doneSystem.coordinator.log deal party ∧
    ¬Refuses (doneSystem.participants party) deal := by
  have committed : StateLogged party (doneSystem.participants party).log deal .committed := by
    decide +kernel
  obtain ⟨atomic, backed⟩ := transactions_are_atomic reachable_doneSystem deal
  obtain ⟨part, all⟩ := backed party committed
  exact ⟨reachable_doneSystem, committed, fun q => atomic party q committed, part,
    (all party part).2⟩

end System

end AtomicCommit

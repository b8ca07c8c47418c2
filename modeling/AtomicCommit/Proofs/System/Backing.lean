import AtomicCommit.Proofs.System.Atomicity

/-!
# What the coordinator's log claims

What the coordinator has entered of its participants is what their own logs hold: a vote, an
acknowledgement, and at the end that all is over. Once it is over nothing that still arrives changes
anything.

## Main results

* `System.coordinator_log_is_backed`: each entry of the coordinator about a participant is borne out
  by the participant's log.
-/

namespace AtomicCommit.System

open Participant (StateLogged)
open Coordinator (deal party)

variable {c : Coordinator} {s s' : System c} {tx : TransactionId} {p : ProcessId}

/-- A participant has resolved a transaction: its last entry says so. -/
def Resolved (p : ProcessId) (log : List Entry) (tx : TransactionId) (d : Decision) : Prop :=
  Log.lastState? log p tx = some (ParticipantState.resolved d).toState

theorem resolved_of_applied {log : List Entry} {d : Decision}
    (h : Participant.Applied p log tx d) : Resolved p log tx d := by
  obtain ⟨r, known, resolved⟩ := h
  rw [Resolved, Log.lastState?, Record.History.last known, resolved]

/-! ## Votes -/

/-- A vote entered by the coordinator is in the log of who has voted. -/
theorem Linked.voteLogged (linked : Linked s) {v : Vote}
    (h : c.VoteLogged s.coordinator.log tx p v) :
    Participant.VoteLogged p (s.participants p).log tx v := by
  obtain ⟨e, he, payload⟩ := h
  obtain ⟨call, heard, -⟩ := Coordinator.heard_of_mem linked.coordinator.toSound he
  exact (linked.participants p).voted call tx v (heard p v payload)

/-- Who has voted not to commit has aborted and never prepared. -/
theorem aborted_of_no {log : List Entry} (h : Participant.VoteLogged p log tx .no) :
    StateLogged p log tx .aborted ∧ ¬StateLogged p log tx .prepared := by
  obtain ⟨r, known, no⟩ := h
  have unprepared : r.vote ≠ some .yes := by
    intro yes
    simp [yes] at no
  have aborted := Record.History.aborted_of_ne_yes known unprepared
  exact ⟨(Record.History.resolved_iff known (d := .abort)).2 aborted,
    fun prepared => unprepared ((Record.History.prepared_iff known).1 prepared)⟩

/-! ## Acknowledgements -/

/-- Who is entered as having acknowledged has applied the decision that is logged. -/
theorem Linked.applied_of_acknowledged (linked : Linked s)
    (h : c.AcknowledgementLogged s.coordinator.log tx p) :
    ∃ d, c.DecisionLogged s.coordinator.log tx d ∧
      Participant.Applied p (s.participants p).log tx d := by
  have sound := linked.coordinator.toSound
  obtain ⟨e, he, payload⟩ := h
  obtain ⟨call, -, heard⟩ := Coordinator.heard_of_mem sound he
  obtain ⟨message, awaited, reply, log, rfl, rfl, result, answered⟩ := heard p payload
  exact ⟨message.decision, Coordinator.decisionLogged_of_awaited sound answered,
    (linked.participants _).acknowledged call message awaited log reply answered rfl result⟩

/-- When the end is logged everyone who takes part has acknowledged. -/
theorem Linked.applied_of_done (linked : Linked s) (done : c.DoneLogged s.coordinator.log tx)
    (part : c.TakesPart s.coordinator.log tx p) {d : Decision}
    (decided : c.DecisionLogged s.coordinator.log tx d) :
    Participant.Applied p (s.participants p).log tx d := by
  have sound := linked.coordinator.toSound
  obtain ⟨t, rfl, logged⟩ := Coordinator.exists_logged sound decided.history_ne_nil
  have acknowledged := logged.wellFormed.finished (logged.done_iff.1 done) p
    (logged.takesPart_iff.1 part)
  obtain ⟨d', decided', applied⟩ :=
    linked.applied_of_acknowledged (logged.acknowledgement_iff.2 acknowledged)
  exact decided.unique sound decided' ▸ applied

/-- A transaction that is done has a decision. -/
theorem Linked.decided_of_done (linked : Linked s) (done : c.DoneLogged s.coordinator.log tx) :
    ∃ d, c.DecisionLogged s.coordinator.log tx d := by
  have known : Log.history s.coordinator.log c.id tx ≠ [] := by
    obtain ⟨e, he, -⟩ := done
    exact List.ne_nil_of_mem he
  obtain ⟨t, rfl, logged⟩ := Coordinator.exists_logged linked.coordinator.toSound known
  cases decided : t.decision with
  | some d => exact ⟨d, logged.decision_iff.2 decided⟩
  | none =>
    have done := logged.done_iff.1 done
    rcases logged.wellFormed.undecided.1 decided with state | state <;> simp [state] at done

/-! ## What comes later -/

theorem Leads.grows (h : Leads s s') :
    s.coordinator.log <+: s'.coordinator.log ∧
      ∀ p, (s.participants p).log <+: (s'.participants p).log := by
  induction h with
  | refl => exact ⟨List.prefix_rfl, fun _ => List.prefix_rfl⟩
  | tail _ step ih =>
    cases step with
    | coordinator step => exact ⟨ih.1.trans step.grows.log, ih.2⟩
    | participant step =>
      refine ⟨ih.1, (Function.forall_update_iff _ fun p (n : Node (Participant.role p)) =>
        (s.participants p).log <+: n.log).2 ⟨?_, fun q _ => ih.2 q⟩⟩
      exact (ih.2 _).trans step.grows.log

/-- Who has anything in its log of a transaction takes part in it. -/
theorem Linked.takesPart_of_mem (linked : Linked s) {e : Entry}
    (he : e ∈ Log.history (s.participants p).log p tx) : c.TakesPart s.coordinator.log tx p := by
  have bound := linked.participants p
  obtain ⟨found, sees⟩ := Participant.Kept.sees (bound.holds.kept tx)
  cases found with
  | none =>
    rw [show Log.history (s.participants p).log p tx = [] from sees] at he
    cases he
  | some r =>
    by_cases yes : r.vote = some .yes
    · obtain ⟨e, he, coordinator, payload, takes, -⟩ := Record.History.exists_prepared sees yes
      have voted : Record.coordinatorOf? e.payload = some (some coordinator) := by
        rw [takes.payload]
        rfl
      exact linked.takesPart_of_voted he voted
    · rcases Record.History.exists_of_resolved sees (Record.History.aborted_of_ne_yes sees yes) with
        ⟨e, he, payload⟩ | ⟨-, -, e, he, coordinator, payload⟩
      · obtain ⟨call, told⟩ := Participant.told_of_resolved bound.holds.toSound he payload
        exact (bound.told call tx .abort told).1
      · have voted : Record.coordinatorOf? e.payload = some (some coordinator) := by
          rw [payload]
          rfl
        exact linked.takesPart_of_voted he voted

/-- Once the end of a transaction is logged nobody writes anything about it again. -/
theorem Linked.history_of_done (linked : Linked s) (done : c.DoneLogged s.coordinator.log tx)
    (later : Leads s s') (p : ProcessId) :
    Log.history (s'.participants p).log p tx = Log.history (s.participants p).log p tx := by
  have linked' := linked.leads later
  obtain ⟨grown, grows⟩ := later.grows
  obtain ⟨d, decided⟩ := linked.decided_of_done done
  obtain ⟨t, rfl, logged⟩ :=
    Coordinator.exists_logged linked.coordinator.toSound decided.history_ne_nil
  by_cases part : c.TakesPart s.coordinator.log t.id p
  · exact ((linked.applied_of_done done part decided).mono (linked'.participants p).holds
      (grows p)).2
  · have nothing : Log.history (s'.participants p).log p t.id = [] := by
      refine List.eq_nil_iff_forall_not_mem.2 fun e he => part ?_
      exact Coordinator.TakesPart.of_prefix linked'.coordinator.toSound grown logged
        (linked'.takesPart_of_mem he)
    have sub := Log.history_prefix (grows p) p t.id
    rw [nothing] at sub
    rw [nothing, List.prefix_nil.1 sub]

/-- In every run of a system the log of the coordinator claims no more of its participants than
their own logs hold. Who is entered with a vote to commit has prepared; who is entered with a vote
not to commit has aborted and never prepared; who is entered with an acknowledgement has resolved as
decided, and nobody acknowledges what it has not resolved so; and once the end is entered everyone
has resolved as decided, and nobody writes anything about the transaction again. Of the recoveries
of participants the runs assume what `Participant.recoveryLocks` says. -/
theorem coordinator_log_is_backed (h : s.Reachable) (tx : TransactionId) :
    (∀ p, c.VoteLogged s.coordinator.log tx p .yes →
      StateLogged p (s.participants p).log tx .prepared) ∧
    (∀ p, c.VoteLogged s.coordinator.log tx p .no →
      StateLogged p (s.participants p).log tx .aborted ∧
        ¬StateLogged p (s.participants p).log tx .prepared) ∧
    (∀ p, c.AcknowledgementLogged s.coordinator.log tx p →
      ∃ d, c.DecisionLogged s.coordinator.log tx d ∧ Resolved p (s.participants p).log tx d) ∧
    (∀ p d, ∀ m ∈ (s.participants p).past, m.event = .returned (.handleDecision tx d) (.ok ()) →
      Resolved p m.log tx d) ∧
    (c.DoneLogged s.coordinator.log tx →
      (∃ d, c.DecisionLogged s.coordinator.log tx d ∧
        ∀ p, c.TakesPart s.coordinator.log tx p → Resolved p (s.participants p).log tx d) ∧
      ∀ s', Leads s s' → ∀ p,
        Log.history (s'.participants p).log p tx = Log.history (s.participants p).log p tx) := by
  have linked := h.linked
  refine ⟨?_, ?_, ?_, ?_, ?_⟩
  · exact fun p yes => (linked.voteLogged yes).prepared
  · exact fun p no => aborted_of_no (linked.voteLogged no)
  · intro p acknowledged
    obtain ⟨d, decided, applied⟩ := linked.applied_of_acknowledged acknowledged
    exact ⟨d, decided, resolved_of_applied applied⟩
  · rintro p d ⟨call, event, log⟩ hm rfl
    exact resolved_of_applied ((linked.participants p).applied_of_returned hm)
  · intro done
    obtain ⟨d, decided⟩ := linked.decided_of_done done
    refine ⟨⟨d, decided, fun p part => ?_⟩, fun s' later p => linked.history_of_done done later p⟩
    exact resolved_of_applied (linked.applied_of_done done part decided)

/-- In the run of a transaction that commits, the log of the coordinator is borne out to the end. -/
theorem coordinator_log_is_backed_doneSystem :
    doneSystem.Reachable ∧
    (default : Coordinator).VoteLogged doneSystem.coordinator.log deal party .yes ∧
    (default : Coordinator).AcknowledgementLogged doneSystem.coordinator.log deal party ∧
    (default : Coordinator).DoneLogged doneSystem.coordinator.log deal ∧
    StateLogged party (doneSystem.participants party).log deal .prepared ∧
    (∃ d, (default : Coordinator).DecisionLogged doneSystem.coordinator.log deal d ∧
      Resolved party (doneSystem.participants party).log deal d) ∧
    ∀ s', Leads doneSystem s' → ∀ p, Log.history (s'.participants p).log p deal =
      Log.history (doneSystem.participants p).log p deal := by
  obtain ⟨yes, -, acknowledged, -, done⟩ := coordinator_log_is_backed reachable_doneSystem deal
  have voted : (default : Coordinator).VoteLogged doneSystem.coordinator.log deal party .yes := by
    decide +kernel
  have heard : (default : Coordinator).AcknowledgementLogged doneSystem.coordinator.log deal
      party := by
    decide +kernel
  have ended : (default : Coordinator).DoneLogged doneSystem.coordinator.log deal := by
    decide +kernel
  exact ⟨reachable_doneSystem, voted, heard, ended, yes party voted, acknowledged party heard,
    (done ended).2⟩

end AtomicCommit.System

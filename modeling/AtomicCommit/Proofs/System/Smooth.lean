import AtomicCommit.Proofs.Coordinator.Smooth
import AtomicCommit.Proofs.Participant.Smooth
import AtomicCommit.Proofs.System.Links

/-!
# Smooth runs of a system

What happens to one process of a system may be computed while the others rest.

## Main results

* `System.attains_coordinator`, `System.attains_participant`: a computed run of a process is a run
  of the system.
* `System.reachable_doneSystem`: a transaction may begin, be committed and end.
-/

namespace AtomicCommit

namespace Participant

/-- A moment gives a vote. -/
def gives {p : ProcessId} (m : Moment (role p)) (message : PrepareMessage) (v : Vote) : Bool :=
  match m.event with
  | .returned (.handlePrepare message') (.ok v') => message' = message ∧ v' = v
  | _ => false

/-- A moment reports that a decision has been applied. -/
def reports {p : ProcessId} (m : Moment (role p)) (message : DecisionMessage) : Bool :=
  match m.event with
  | .returned (.handleDecision tx d) (.ok _) => tx = message.transaction ∧ d = message.decision
  | _ => false

theorem event_of_reports {p : ProcessId} {m : Moment (role p)} {message : DecisionMessage}
    (h : reports m message = true) :
    m.event = .returned (.handleDecision message.transaction message.decision) (.ok ()) := by
  unfold reports at h
  split at h
  · rename_i tx d done same
    obtain ⟨rfl, rfl⟩ := of_decide_eq_true h
    exact same
  · cases h

end Participant

namespace System

/-! ## Computed runs -/

variable {c : Coordinator} (s : System c)

/-- The system with another coordinator. -/
abbrev withCoordinator (n : Node c.role) : System c := { s with coordinator := n }

/-- The system with another participant. -/
abbrev withParticipant (p : ProcessId) (n : Node (Participant.role p)) : System c :=
  { s with participants := Function.update s.participants p n }

theorem attains_coordinator {s₀ : System c} :
    Node.Attains (fun n => Leads s₀ (s.withCoordinator n))
      (fun n => (s.withCoordinator n).CoordinatorAllows) (Coordinator.sending c) := by
  constructor
  · exact fun n n' before step => before.tail (.coordinator step)
  · intro n call op q a log alone
    exact { toAllows := Coordinator.allows_of_alone alone nofun
            called := nofun
            vote := nofun
            acknowledgement := nofun }
  · intro n call op q a log alone answered
    have draws : ∀ tx, (⟨call, .answered (.inr q) a, log⟩ : Moment c.role).event ≠
        .answered (.inr .freshId) tx := by
      rintro tx ⟨⟩
      cases answered
    refine { toAllows := Coordinator.allows_of_alone alone draws
             called := nofun
             vote := ?_
             acknowledgement := ?_ }
    · rintro tx awaited reply ⟨⟩
      cases answered
    · rintro message awaited reply ⟨⟩
      cases answered

variable {p : ProcessId}

@[simp] theorem participants_withParticipant (n : Node (Participant.role p)) :
    (s.withParticipant p n).participants p = n :=
  Function.update_self ..

@[simp] theorem withParticipant_withParticipant (n n' : Node (Participant.role p)) :
    (s.withParticipant p n).withParticipant p n' = s.withParticipant p n' := by
  simp

theorem withParticipant_self : s.withParticipant p (s.participants p) = s := by
  rw [withParticipant, Function.update_eq_self]

theorem attains_participant {s₀ : System c} :
    Node.Attains (fun n => Leads s₀ (s.withParticipant p n))
      (fun n => (s.withParticipant p n).ParticipantAllows p) (Participant.willing p) := by
  constructor
  · intro n n' before step
    rw [← withParticipant_withParticipant s n n']
    refine before.tail (.participant ?_)
    rwa [participants_withParticipant]
  · intro n call op q a log alone
    refine { toAllows := Participant.allows_of_alone ?_
             prepare := nofun
             decision := nofun
             queryVote := nofun
             told := nofun }
    rwa [participants_withParticipant]
  · intro n call op q a log alone answered
    refine { toAllows := Participant.allows_of_alone ?_
             prepare := nofun
             decision := nofun
             queryVote := nofun
             told := ?_ }
    · rwa [participants_withParticipant]
    · rintro coordinator tx result ⟨⟩
      cases answered

/-- A vote that has been given may be heard. -/
theorem Replies.of_gives {message : PrepareMessage} {v : Vote}
    (h : ∃ m ∈ (s.participants p).past, Participant.gives m message v = true) :
    s.Replies ⟨p, .prepare message⟩ (.ok v) := by
  obtain ⟨⟨call, event, log⟩, hm, h⟩ := h
  unfold Participant.gives at h
  split at h
  · rename_i message' v' same
    obtain ⟨rfl, rfl⟩ := of_decide_eq_true h
    dsimp only at same
    exact .prepare (same ▸ hm)
  · cases h

/-- A report that has been made may be heard. -/
theorem Replies.of_reports {message : DecisionMessage}
    (h : ∃ m ∈ (s.participants p).past, Participant.reports m message = true) :
    s.Replies ⟨p, .decision message⟩ (.ok ()) := by
  obtain ⟨⟨call, event, log⟩, hm, h⟩ := h
  obtain rfl := Participant.event_of_reports h
  exact .decision hm

/-! ## What may be heard -/

variable {op : Coordinator.Operation} {call : ℕ} {q : Coordinator.Request}
  {a : Coordinator.Answer q} {log : List Entry}

/-- An identifier never drawn before may be drawn. -/
theorem allows_drawing {tx : TransactionId} (alone : s.coordinator.Alone call)
    (none : ∀ m ∈ s.coordinator.past, Coordinator.draws m tx = false)
    (first : c.drawing tx q = some a) :
    s.CoordinatorAllows op ⟨call, .answered (.inr q) a, log⟩ := by
  refine { toAllows := Coordinator.allows_drawing alone none first
           called := nofun
           vote := ?_
           acknowledgement := ?_ }
  · rintro tx' awaited reply ⟨⟩
    cases first
  · rintro message awaited reply ⟨⟩
    cases first

/-- A vote that has been asked for and given may be heard. -/
theorem allows_voting (message : PrepareMessage) {v : Vote} (alone : s.coordinator.Alone call)
    (requested : ∃ m ∈ s.coordinator.past, Coordinator.requests m false p message = true)
    (given : ∃ m ∈ (s.participants p).past, Participant.gives m message v = true)
    (first : c.voting message.transaction p v q = some a) :
    s.CoordinatorAllows op ⟨call, .answered (.inr q) a, log⟩ := by
  refine { toAllows := Coordinator.allows_other alone rfl first
           called := nofun
           vote := ?_
           acknowledgement := ?_ }
  · rintro tx awaited ⟨sender, mem, result⟩ ⟨⟩
    obtain ⟨rfl, rfl, rfl⟩ := Coordinator.eq_of_voting first
    refine ⟨false, message, .of_mem requested, rfl, ?_⟩
    rw [Transport.run_ballot_first]
    exact .later (.of_gives s given) .done
  · rintro message' awaited reply ⟨⟩
    cases first

/-- An acknowledgement of what has been sent and reported may be heard. -/
theorem allows_acknowledging (message : DecisionMessage) (alone : s.coordinator.Alone call)
    (sent : ∃ m ∈ s.coordinator.past, Coordinator.sends m p message = true)
    (reported : ∃ m ∈ (s.participants p).past, Participant.reports m message = true)
    (first : c.acknowledging message p q = some a) :
    s.CoordinatorAllows op ⟨call, .answered (.inr q) a, log⟩ := by
  refine { toAllows := Coordinator.allows_other alone rfl first
           called := nofun
           vote := ?_
           acknowledgement := ?_ }
  · rintro tx awaited reply ⟨⟩
    cases first
  · rintro message' awaited ⟨sender, mem, result⟩ ⟨⟩
    obtain ⟨rfl, rfl, rfl⟩ := Coordinator.eq_of_acknowledging first
    exact ⟨.of_mem sent, .of_reports s reported⟩

/-! ## What may be delivered -/

section Deliver

variable {log : List Entry} {call : ℕ}

/-- A request for a vote that has been sent may be delivered. -/
theorem allows_prepare (message : PrepareMessage) (alone : (s.participants p).Alone call)
    (requested : ∃ m ∈ s.coordinator.past, Coordinator.requests m false p message = true) :
    s.ParticipantAllows p (.handlePrepare message)
      ⟨call, .started (.handlePrepare message), log⟩ := by
  refine { toAllows := Participant.allows_of_alone alone
           prepare := ?_
           decision := nofun
           queryVote := nofun
           told := nofun }
  rintro _ ⟨⟩
  refine .ballot (Coordinator.Requests.of_mem requested) ?_
  rw [Transport.run_ballot_first]
  exact .here

/-- A decision that has been sent may be delivered. -/
theorem allows_decision (message : DecisionMessage) (alone : (s.participants p).Alone call)
    (sent : ∃ m ∈ s.coordinator.past, Coordinator.sends m p message = true) :
    s.ParticipantAllows p (.handleDecision message.transaction message.decision)
      ⟨call, .started (.handleDecision message.transaction message.decision), log⟩ := by
  refine { toAllows := Participant.allows_of_alone alone
           prepare := nofun
           decision := ?_
           queryVote := nofun
           told := nofun }
  rintro _ _ ⟨⟩
  exact .decision (Coordinator.Sends.of_mem sent)

end Deliver

/-! ## A transaction that commits -/

section Commits

open Coordinator (deal party drawingRun votingRun decidedRun doneRun)

/-- What the participant is asked. -/
abbrev ballot : PrepareMessage := ⟨deal, (default : Coordinator).id, []⟩

/-- The participant votes to commit. -/
def preparedRun : Node (Participant.role party) :=
  Node.begins { outside := Participant.willing party } {} 0 (.handlePrepare ballot)

/-- The participant commits. -/
def committedRun : Node (Participant.role party) :=
  preparedRun.begins { outside := Participant.willing party } 1 (.handleDecision deal .commit)

/-- The participant is asked for its vote. -/
def votingSystem : System default where
  coordinator := votingRun

/-- The participant has voted. -/
def preparedSystem : System default :=
  votingSystem.withParticipant party preparedRun

/-- The decision is made. -/
def decidedSystem : System default :=
  preparedSystem.withCoordinator decidedRun

/-- The participant has committed. -/
def committedSystem : System default :=
  decidedSystem.withParticipant party committedRun

/-- The transaction is done. -/
def doneSystem : System default :=
  committedSystem.withCoordinator doneRun

theorem reachable_votingSystem : votingSystem.Reachable := by
  have alone : drawingRun.Alone 0 := Node.alone_begins fun _ _ => rfl
  have started : (({} : System default).withCoordinator drawingRun).Reachable := by
    refine (attains_coordinator {}).begins { outside := Coordinator.sending default } .refl
      (fun _ _ => rfl) (fun _ hm => nomatch hm) ?_
    exact { toAllows := Coordinator.allows_of_alone (fun _ _ => rfl) nofun
            called := nofun
            vote := nofun
            acknowledgement := nofun }
  refine (attains_coordinator {}).resumes { outside := Coordinator.sending default } started alone
    fun op q a first => ?_
  exact allows_drawing _ alone (by decide +kernel) first

theorem reachable_preparedSystem : preparedSystem.Reachable := by
  have start : (votingSystem.withParticipant party {}).Reachable :=
    (withParticipant_self votingSystem).symm ▸ reachable_votingSystem
  refine (attains_participant votingSystem).begins { outside := Participant.willing party } start
    (fun _ _ => rfl) (fun _ hm => nomatch hm) ?_
  refine allows_prepare _ ballot ?_ (by decide +kernel)
  rw [participants_withParticipant]
  exact fun _ _ => rfl

theorem reachable_decidedSystem : decidedSystem.Reachable := by
  have alone : votingRun.Alone 0 := Node.alone_resumes (Node.alone_begins fun _ _ => rfl)
  refine (attains_coordinator preparedSystem).resumes { outside := Coordinator.sending default }
    reachable_preparedSystem alone fun op q a first => ?_
  exact allows_voting _ ballot alone (by decide +kernel) (by decide +kernel) first

theorem reachable_committedSystem : committedSystem.Reachable := by
  have alone : preparedRun.Alone 0 := Node.alone_begins fun _ _ => rfl
  have start : (decidedSystem.withParticipant party preparedRun).Reachable :=
    (withParticipant_self decidedSystem).symm ▸ reachable_decidedSystem
  refine (attains_participant decidedSystem).begins { outside := Participant.willing party } start
    (alone.of_ended (by decide +kernel)) (by decide +kernel) ?_
  refine allows_decision _ ⟨deal, .commit⟩ ?_ (by decide +kernel)
  rw [participants_withParticipant]
  exact alone.of_ended (by decide +kernel)

theorem reachable_doneSystem : doneSystem.Reachable := by
  have alone : decidedRun.Alone 0 :=
    Node.alone_resumes (Node.alone_resumes (Node.alone_begins fun _ _ => rfl))
  refine (attains_coordinator committedSystem).resumes { outside := Coordinator.sending default }
    reachable_committedSystem alone fun op q a first => ?_
  exact allows_acknowledging _ ⟨deal, .commit⟩ alone (by decide +kernel)
    (by decide +kernel) first

end Commits

end System

end AtomicCommit

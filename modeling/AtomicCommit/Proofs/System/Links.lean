import AtomicCommit.Proofs.System.Network

/-!
# What ties the logs of a system together

The coordinator and the participants know of each other only by calls. Whatever one of them has
heard has been said, and stood in the log of the one that said it. These links hold in every run:
each is preserved by what any one process does, as logs and pasts only grow.

## Main definitions

* `System.Linked`: the invariant of a system.

## Main results

* `System.Reachable.linked`: it holds in every run.
-/

namespace AtomicCommit

namespace Transport

variable {answers : (q : Addressed) → Except TransportError q.call.Reply → Prop} {resuming : Bool}
  {p : ProcessId} {message : PrepareMessage}

theorem run_ballot_first : (ballot false p message).run =
    .ask (I := Transport) ⟨p, .prepare message⟩ .done := by
  show Program.ask _ _ = Program.ask _ _
  rfl

theorem run_ballot_resuming : (ballot true p message).run =
    .ask (I := Transport) ⟨p, .queryVote message.transaction⟩ fun reply =>
      match reply with
      | .ok (some v) => .done (.ok v)
      | .ok none => .ask (I := Transport) ⟨p, .prepare message⟩ .done
      | .error failure => .done (.error failure) := by
  show Program.ask _ _ = Program.ask _ _
  congr 1
  funext reply
  match reply with
  | .ok (some v) => rfl
  | .ok none => rfl
  | .error failure => rfl

/-- Who is asked for a vote is asked by these two calls only. -/
theorem reaches_ballot {q : Addressed} (h : (ballot resuming p message).run.Reaches answers q) :
    q = ⟨p, .prepare message⟩ ∨ q = ⟨p, .queryVote message.transaction⟩ := by
  cases resuming with
  | false =>
    rw [run_ballot_first] at h
    cases h with
    | here => exact .inl rfl
    | later _ h => cases h
  | true =>
    rw [run_ballot_resuming] at h
    cases h with
    | here => exact .inr rfl
    | @later _ _ _ reply _ h =>
      match reply with
      | .ok (some v) => cases h
      | .error failure => cases h
      | .ok none =>
        cases h with
        | here => exact .inl rfl
        | later _ h => cases h

/-- A vote is one given or one told. -/
theorem yields_ballot {v : Vote} (h : (ballot resuming p message).run.Yields answers (.ok v)) :
    answers ⟨p, .prepare message⟩ (.ok v) ∨
      answers ⟨p, .queryVote message.transaction⟩ (.ok (some v)) := by
  cases resuming with
  | false =>
    rw [run_ballot_first] at h
    cases h with
    | later replied h =>
      cases h
      exact .inl replied
  | true =>
    rw [run_ballot_resuming] at h
    cases h with
    | @later _ _ reply _ replied h =>
      match reply with
      | .ok (some v) =>
        cases h
        exact .inr replied
      | .error failure => cases h
      | .ok none =>
        cases h with
        | later replied h =>
          cases h
          exact .inl replied

end Transport

namespace System

variable {c : Coordinator} {s s' : System c}

/-! ## The links -/

/-- What ties a participant to the coordinator. -/
structure Bound {c : Coordinator} (n : Node c.role) (p : ProcessId)
    (n' : Node (Participant.role p)) : Prop where
  /-- The participant keeps to its discipline. -/
  holds : (Participant.discipline p).Holds n'
  /-- If it is asked to vote, the coordinator has asked it. -/
  requested : ∀ call message log, ⟨call, .started (.handlePrepare message), log⟩ ∈ n'.past →
    ∃ resuming, c.Requests n.past resuming p message
  /-- A vote heard from it is in its log. -/
  voted : ∀ call tx v, c.HeardVote n.past call tx p v → Participant.VoteLogged p n'.log tx v
  /-- A commit is delivered only once it has voted for it. -/
  backed : ∀ call tx log, ⟨call, .started (.handleDecision tx .commit), log⟩ ∈ n'.past →
    Participant.VoteLogged p log tx .yes
  /-- If it is told a decision, it takes part and the decision is in the log of the coordinator. -/
  told : ∀ call tx d, Participant.Told p n'.past call tx d →
    c.TakesPart n.log tx p ∧ c.DecisionLogged n.log tx d
  /-- A decision it has acknowledged has been applied. -/
  acknowledged : ∀ call message awaited log, ∀ reply : Reply awaited Unit,
    ⟨call, .answered (.inr (.awaitAcknowledgement message awaited)) (some reply), log⟩ ∈ n.past →
      reply.sender = p → reply.result = .ok () →
        Participant.Applied p n'.log message.transaction message.decision

/-- What ties the logs of a system together. -/
structure Linked {c : Coordinator} (s : System c) : Prop where
  /-- The coordinator keeps to its discipline. -/
  coordinator : c.discipline.Holds s.coordinator
  /-- The decision is asked for only once the transaction has begun. -/
  queried : ∀ call tx log, ⟨call, .started (.queryDecision tx), log⟩ ∈ s.coordinator.past →
    Log.history log c.id tx ≠ []
  /-- Every participant is tied to the coordinator. -/
  participants : ∀ p, Bound s.coordinator p (s.participants p)

/-! ## What replies rest on -/

section Replies

variable {p : ProcessId} {tx : TransactionId}

/-- A vote replied is in the log of who has voted. -/
theorem Bound.voteLogged_of_returned {n : Node c.role} {n' : Node (Participant.role p)}
    (bound : Bound n p n') {message : PrepareMessage} {v : Vote} {call : ℕ} {log : List Entry}
    (h : ⟨call, .returned (.handlePrepare message) (.ok v), log⟩ ∈ n'.past) :
    Participant.VoteLogged p n'.log message.transaction v := by
  obtain ⟨⟨before, justified⟩, -⟩ := bound.holds.chronicle.returned h
  exact (Participant.voteLogged_of_returned justified).mono bound.holds (bound.holds.grown _ h)

theorem Bound.voteLogged_of_told {n : Node c.role} {n' : Node (Participant.role p)}
    (bound : Bound n p n') {v : Vote} {call : ℕ} {log : List Entry}
    (h : ⟨call, .returned (.queryVote tx) (.ok (some v)), log⟩ ∈ n'.past) :
    Participant.VoteLogged p n'.log tx v := by
  obtain ⟨⟨before, justified⟩, -⟩ := bound.holds.chronicle.returned h
  exact (Participant.voteLogged_of_told justified).mono bound.holds (bound.holds.grown _ h)

/-- What is acknowledged has been applied; nobody acknowledges what it does not know. -/
theorem Bound.applied_of_returned {n : Node c.role} {n' : Node (Participant.role p)}
    (bound : Bound n p n') {d : Decision} {call : ℕ} {log : List Entry}
    (h : ⟨call, .returned (.handleDecision tx d) (.ok ()), log⟩ ∈ n'.past) :
    Participant.Applied p log tx d := by
  obtain ⟨⟨before, justified⟩, log', grown, started⟩ := bound.holds.chronicle.returned h
  rcases justified.1 with ⟨rfl, unknown⟩ | applied
  · obtain ⟨r, known, -⟩ := bound.backed _ _ _ started
    have sub := Log.history_prefix grown p tx
    rw [show Log.history log p tx = [] from unknown] at sub
    exact absurd (List.prefix_nil.1 sub) (Record.History.ne_nil known)
  · exact applied

/-- A decision that the coordinator gives in answer is in its log. -/
theorem Linked.decisionLogged_of_returned (linked : Linked s) {d : Decision} {call : ℕ}
    {log : List Entry}
    (h : ⟨call, .returned (.queryDecision tx) (.ok (some d)), log⟩ ∈ s.coordinator.past) :
    c.DecisionLogged s.coordinator.log tx d := by
  obtain ⟨⟨before, justified⟩, log', grown, started⟩ := linked.coordinator.chronicle.returned h
  rcases justified with ⟨unknown, -⟩ | ⟨t, rfl, logged, decided⟩
  · have sub := Log.history_prefix grown c.id tx
    rw [unknown] at sub
    exact absurd (List.prefix_nil.1 sub) (linked.queried _ _ _ started)
  · exact (logged.decision_iff.2 decided.symm).mono (linked.coordinator.grown _ h)

/-- A vote that has come of asking for it is in the log of who has voted. -/
theorem Linked.voteLogged_of_yields (linked : Linked s) {resuming : Bool} {message : PrepareMessage}
    {v : Vote} (h : (Transport.ballot resuming p message).run.Yields s.Replies (.ok v)) :
    Participant.VoteLogged p (s.participants p).log message.transaction v := by
  have bound := linked.participants
  rcases Transport.yields_ballot h with replied | replied
  · cases replied with
    | prepare h => exact (bound _).voteLogged_of_returned h
  · cases replied with
    | queryVote h => exact (bound _).voteLogged_of_told h

/-- A decision that is acknowledged in reply has been applied. -/
theorem Linked.applied_of_replied (linked : Linked s) {message : DecisionMessage}
    (h : s.Replies ⟨p, .decision message⟩ (.ok ())) :
    Participant.Applied p (s.participants p).log message.transaction message.decision := by
  have bound := linked.participants
  cases h with
  | decision h =>
    exact (((bound _).applied_of_returned h).mono (bound _).holds ((bound _).holds.grown _ h)).1

/-- Who takes part in a transaction that is to be committed has voted for it. -/
theorem Linked.yes_of_commit (linked : Linked s)
    (decided : c.DecisionLogged s.coordinator.log tx .commit)
    (part : c.TakesPart s.coordinator.log tx p) :
    Participant.VoteLogged p (s.participants p).log tx .yes := by
  have sound := linked.coordinator.toSound
  obtain ⟨t, rfl, logged⟩ := Coordinator.exists_logged sound decided.history_ne_nil
  have unanimous := logged.wellFormed.unanimous (logged.decision_iff.1 decided) p
    (logged.takesPart_iff.1 part)
  obtain ⟨e, he, payload⟩ := logged.vote_iff.2 unanimous
  obtain ⟨call, heard, -⟩ := Coordinator.heard_of_mem sound he
  exact (linked.participants p).voted call t.id .yes (heard p .yes payload)

end Replies

/-! ## The links are kept -/

theorem linked_initial : Linked ({} : System c) where
  coordinator := Discipline.holds_initial Coordinator.discipline_lawful
  queried := by simp
  participants p := by
    constructor
    · exact Discipline.holds_initial Participant.discipline_lawful
    · simp
    · rintro call tx v ⟨awaited, reply, log, -, -, h⟩
      simp at h
    · simp
    · rintro call tx d (⟨log, h⟩ | ⟨coordinator, log, h⟩) <;> simp at h
    · simp

section Requested

variable {n : Node c.role} {p : ProcessId} {n' : Node (Participant.role p)} {tx : TransactionId}

/-- Who has voted takes part. -/
theorem takesPart_of_voted (sound : c.discipline.Sound n.toScene)
    (holds : (Participant.discipline p).Holds n')
    (requested : ∀ call message log, ⟨call, .started (.handlePrepare message), log⟩ ∈ n'.past →
      ∃ resuming, c.Requests n.past resuming p message) {e : Entry} {coordinator : ProcessId}
    (he : e ∈ Log.history n'.log p tx)
    (voted : Record.coordinatorOf? e.payload = some (some coordinator)) :
    c.TakesPart n.log tx p := by
  obtain ⟨call, message, log, rfl, -, started⟩ :=
    Participant.asked_of_voted holds.toSound he voted
  obtain ⟨resuming, requests⟩ := requested _ _ _ started
  exact requests.takesPart sound

/-- Who asks for a decision takes part. -/
theorem takesPart_of_asked (sound : c.discipline.Sound n.toScene)
    (holds : (Participant.discipline p).Holds n')
    (requested : ∀ call message log, ⟨call, .started (.handlePrepare message), log⟩ ∈ n'.past →
      ∃ resuming, c.Requests n.past resuming p message) {coordinator : ProcessId} {call : ℕ}
    {log : List Entry}
    (asked : ⟨call, .asked (.inr (.askDecision coordinator tx)), log⟩ ∈ n'.past) :
    c.TakesPart n.log tx p := by
  obtain ⟨before, -, -, -, -, -, e, he, payload, prepared⟩ := holds.chronicle.justified asked
  have he := (Log.history_prefix (holds.grown _ asked) p tx).subset he
  have voted : Record.coordinatorOf? e.payload = some (some coordinator) := by
    rw [prepared]
    rfl
  exact takesPart_of_voted sound holds requested he voted

end Requested

/-- Who asks for a decision has prepared at the request of the coordinator. -/
theorem Linked.history_ne_nil_of_called (linked : Linked s) {tx : TransactionId}
    (called : s.Calls ⟨c.id, .queryDecision tx⟩) :
    Log.history s.coordinator.log c.id tx ≠ [] := by
  generalize hq : (⟨c.id, .queryDecision tx⟩ : Addressed) = q at called
  cases called with
  | ballot _ reached => rcases Transport.reaches_ballot reached with rfl | rfl <;> cases hq
  | decision _ => cases hq
  | @queryDecision p coordinator tx' call log asked =>
    cases hq
    have bound := linked.participants p
    obtain ⟨e, he, -⟩ :=
      takesPart_of_asked linked.coordinator.toSound bound.holds bound.requested asked
    exact List.ne_nil_of_mem he

/-- A decision that is told by a call has been sent. -/
theorem Calls.sends {p : ProcessId} {message : DecisionMessage}
    (called : s.Calls ⟨p, .decision message⟩) : c.Sends s.coordinator.past p message := by
  generalize hq : (⟨p, .decision message⟩ : Addressed) = q at called
  cases called with
  | ballot _ reached => rcases Transport.reaches_ballot reached with rfl | rfl <;> cases hq
  | queryDecision _ => cases hq
  | decision sent =>
    cases hq
    exact sent

/-- What happens at the coordinator keeps a participant tied to it. -/
theorem Bound.coordinator_step (linked : Linked s) {n : Node c.role}
    (step : s.coordinator.Step s.CoordinatorAllows n) (p : ProcessId) :
    Bound n p (s.participants p) := by
  have bound := linked.participants p
  have grows := step.grows
  constructor
  · exact bound.holds
  · intro call message log h
    obtain ⟨resuming, requests⟩ := bound.requested call message log h
    exact ⟨resuming, requests.mono grows.past⟩
  · rintro call tx v ⟨awaited, reply, log, rfl, voted, h⟩
    rcases step.answered h with h | ⟨op, allowed⟩
    · exact bound.voted call tx v ⟨awaited, reply, log, rfl, voted, h⟩
    · obtain ⟨resuming, message, -, rfl, yields⟩ := allowed.vote tx awaited reply rfl
      rw [voted] at yields
      exact linked.voteLogged_of_yields yields
  · exact bound.backed
  · intro call tx d h
    obtain ⟨part, decided⟩ := bound.told call tx d h
    exact ⟨part.mono grows.log, decided.mono grows.log⟩
  · rintro call message awaited log reply h rfl result
    rcases step.answered h with h | ⟨op, allowed⟩
    · exact bound.acknowledged call message awaited log reply h rfl result
    · obtain ⟨-, replied⟩ := allowed.acknowledgement message awaited reply rfl
      rw [result] at replied
      exact linked.applied_of_replied replied

/-- What happens at a participant keeps it tied to the coordinator. -/
theorem Bound.participant_step (linked : Linked s) {p : ProcessId}
    {n : Node (Participant.role p)}
    (step : (s.participants p).Step (s.ParticipantAllows p) n) : Bound s.coordinator p n := by
  have bound := linked.participants p
  have sound := linked.coordinator.toSound
  have grows := step.grows
  have holds := Participant.holds_step bound.holds step fun _ _ h => h.toAllows
  have requested : ∀ call message log, ⟨call, .started (.handlePrepare message), log⟩ ∈ n.past →
      ∃ resuming, c.Requests s.coordinator.past resuming p message := by
    intro call message log h
    rcases step.started h with h | ⟨-, allowed⟩
    · exact bound.requested call message log h
    · have called := allowed.prepare message rfl
      generalize hq : (⟨p, .prepare message⟩ : Addressed) = q at called
      cases called with
      | @ballot resuming _ _ _ requested reached =>
        rcases Transport.reaches_ballot reached with rfl | rfl
        · cases hq
          exact ⟨resuming, requested⟩
        · cases hq
      | queryDecision _ => cases hq
      | decision _ => cases hq
  constructor
  · exact holds
  · exact requested
  · intro call tx v heard
    exact (bound.voted call tx v heard).mono holds grows.log
  · intro call tx log h
    rcases step.started h with h | ⟨rfl, allowed⟩
    · exact bound.backed call tx log h
    · have sent := (allowed.decision tx .commit rfl).sends
      obtain ⟨part, decided⟩ := sent.takesPart sound
      exact linked.yes_of_commit decided part
  · rintro call tx d (⟨log, h⟩ | ⟨coordinator, log, h⟩)
    · rcases step.started h with h | ⟨-, allowed⟩
      · exact bound.told call tx d (.inl ⟨log, h⟩)
      · exact (allowed.decision tx d rfl).sends.takesPart sound
    · obtain ⟨log', asked⟩ := holds.chronicle.asked h
      have part := takesPart_of_asked sound holds requested asked
      rcases step.answered h with h | ⟨op, allowed⟩
      · exact bound.told call tx d (.inr ⟨coordinator, log, h⟩)
      · have replied := allowed.told coordinator tx _ rfl
        cases replied with
        | queryDecision h => exact ⟨part, linked.decisionLogged_of_returned h⟩
  · intro call message awaited log reply h sender result
    exact ((bound.acknowledged call message awaited log reply h sender result).mono holds
      grows.log).1

theorem Linked.step (linked : Linked s) (step : Step s s') : Linked s' := by
  cases step with
  | coordinator step =>
    constructor
    · exact Coordinator.holds_step linked.coordinator step fun _ _ h => h.toAllows
    · intro call tx log h
      rcases step.started h with h | ⟨rfl, allowed⟩
      · exact linked.queried call tx log h
      · exact linked.history_ne_nil_of_called (allowed.called tx rfl)
    · exact Bound.coordinator_step linked step
  | participant step =>
    constructor
    · exact linked.coordinator
    · exact linked.queried
    · exact (Function.forall_update_iff _ _).2
        ⟨Bound.participant_step linked step, fun q _ => linked.participants q⟩

theorem Linked.leads (linked : Linked s) (leads : Leads s s') : Linked s' := by
  induction leads with
  | refl => exact linked
  | tail _ step ih => exact ih.step step

/-- The links hold in every run. -/
theorem Reachable.linked (h : s.Reachable) : Linked s :=
  linked_initial.leads h

end System

end AtomicCommit

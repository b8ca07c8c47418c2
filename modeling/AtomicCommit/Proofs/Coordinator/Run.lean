import AtomicCommit.Proofs.Coordinator.Obedience
import AtomicCommit.Proofs.Process.Favour

/-!
# Runs of a coordinator

A coordinator runs over a log that it may share with others, restarts at any time, and is answered
in any way: its entries may fail to be stored, and replies may say anything. Only identifiers are
fresh. What its log holds and what it says of a transaction are read off its past, and the
discipline relates the two.

## Main definitions

* `Coordinator.Reachable`: what a run may lead to.
* `Coordinator.BeginLogged`, `Coordinator.DecisionLogged`, ...: what a log holds.
* `Coordinator.AsksVote`, `Coordinator.SendsDecision`, ...: what a moment says.

## Main results

* `Coordinator.Reachable.holds`: the discipline holds in every run.
* `Coordinator.Reachable.prospers`: what operations aim at, they come to in every run.
-/

namespace AtomicCommit.Coordinator

variable (self : Coordinator)

/-- What may happen at a node: no identifier is given out twice, and a call is taken on only beside
calls that it may overlap. -/
structure Allows (c : Coordinator) (n : Node c.role) (op : Operation) (m : Moment c.role) :
    Prop where
  /-- An identifier given out has never been given out before. -/
  fresh : ∀ tx, m.event = .answered (.inr .freshId) tx → ∀ call, ¬c.Drawn n.past call tx
  /-- No call rests that the call may not overlap. -/
  turn : ∀ other t, n.threads other = some t → other ≠ m.call → t.operation.overlaps op = true

/-- What a coordinator may come to in a run from an empty log. -/
inductive Reachable : Node self.role → Prop where
  /-- It has not started. -/
  | initial : Reachable {}
  /-- Something happens. -/
  | step {n n' : Node self.role} (before : Reachable n) (step : n.Step (self.Allows n) n') :
      Reachable n'

/-! ## What a log holds -/

/-- The entry that begins a transaction is in the log. -/
def BeginLogged (log : List Entry) (tx : TransactionId) : Prop :=
  ∃ e ∈ Log.history log self.id tx, e.previous = none ∧ e.state = .init ∧
    ∃ members operations deadline, e.payload = .begin members operations deadline

/-- The entry that opens the collection of votes is in the log. -/
def PreparingLogged (log : List Entry) (tx : TransactionId) : Prop :=
  ∃ e ∈ Log.history log self.id tx, e.previous = some .init ∧ e.state = .preparing ∧
    e.payload = .none

/-- The entry of a decision is in the log. -/
def DecisionLogged (log : List Entry) (tx : TransactionId) (d : Decision) : Prop :=
  ∃ e ∈ Log.history log self.id tx, e.previous = some .preparing ∧
    e.state = (CoordinatorState.deciding d).toState ∧ e.payload = .decision d

/-- The entry that begins a transaction names a participant. -/
def TakesPart (log : List Entry) (tx : TransactionId) (p : ProcessId) : Prop :=
  ∃ e ∈ Log.history log self.id tx, ∃ members operations deadline,
    e.payload = .begin members operations deadline ∧ p ∈ members

/-- A vote has been entered. -/
def VoteLogged (log : List Entry) (tx : TransactionId) (p : ProcessId) (v : Vote) : Prop :=
  ∃ e ∈ Log.history log self.id tx, e.payload = .vote p v

/-- An acknowledgement has been entered. -/
def AcknowledgementLogged (log : List Entry) (tx : TransactionId) (p : ProcessId) : Prop :=
  ∃ e ∈ Log.history log self.id tx, e.payload = .acknowledged p

/-- The end of a transaction is in the log. -/
def DoneLogged (log : List Entry) (tx : TransactionId) : Prop :=
  ∃ e ∈ Log.history log self.id tx, e.state = .done

/-! ## What a moment says -/

/-- A participant is asked for its vote, by PREPARE or by first asking which vote it has logged. -/
def AsksVote (m : Moment self.role) (tx : TransactionId) : Prop :=
  ∃ resuming messages time p message,
    m.event = .asked (.inr (.requestVotes resuming messages time)) ∧
      (p, message) ∈ messages ∧ message.transaction = tx

/-- A decision is sent. -/
def SendsDecision (m : Moment self.role) (tx : TransactionId) (d : Decision) : Prop :=
  ∃ message participants time, m.event = .asked (.inr (.sendDecision message participants time)) ∧
    message.transaction = tx ∧ message.decision = d

/-- A query for the decision is answered. -/
def AnswersQuery (m : Moment self.role) (tx : TransactionId) (answer : Option Decision) : Prop :=
  m.event = .returned (.queryDecision tx) (.ok answer)

/-- The outcome of a transaction is returned to whoever began it. -/
def ReturnsOutcome (m : Moment self.role) (tx : TransactionId) (outcome : Outcome) : Prop :=
  ∃ participants operations timeout, ∃ result : CommitOutcome,
    m.event = .returned (.begin participants operations timeout) (.ok result) ∧
      result.transaction = tx ∧ result.outcome = outcome

/-- A participant has been asked for its vote with a message; when its transaction was resumed it
was asked for the vote it has logged first. -/
def Requests (past : List (Moment self.role)) (resuming : Bool) (p : ProcessId)
    (message : PrepareMessage) : Prop :=
  ∃ call messages time log,
    ⟨call, .asked (.inr (.requestVotes resuming messages time)), log⟩ ∈ past ∧
      (p, message) ∈ messages

/-- A participant has been sent the decision. -/
def Sends (past : List (Moment self.role)) (p : ProcessId) (message : DecisionMessage) : Prop :=
  ∃ call participants time log,
    ⟨call, .asked (.inr (.sendDecision message participants time)), log⟩ ∈ past ∧
      p ∈ participants

variable {self}

/-! ## Logs that replay -/

section Logs

variable {log log' : List Entry} {t : Transaction} {tx : TransactionId} {d : Decision}

theorem BeginLogged.history_ne_nil (h : self.BeginLogged log tx) :
    Log.history log self.id tx ≠ [] := by
  obtain ⟨e, he, -⟩ := h
  exact List.ne_nil_of_mem he

theorem DecisionLogged.history_ne_nil (h : self.DecisionLogged log tx d) :
    Log.history log self.id tx ≠ [] := by
  obtain ⟨e, he, -⟩ := h
  exact List.ne_nil_of_mem he

theorem BeginLogged.mono (h : self.BeginLogged log tx) (grown : log <+: log') :
    self.BeginLogged log' tx := by
  obtain ⟨e, he, rest⟩ := h
  exact ⟨e, (Log.history_prefix grown _ _).subset he, rest⟩

theorem PreparingLogged.mono (h : self.PreparingLogged log tx) (grown : log <+: log') :
    self.PreparingLogged log' tx := by
  obtain ⟨e, he, rest⟩ := h
  exact ⟨e, (Log.history_prefix grown _ _).subset he, rest⟩

theorem DecisionLogged.mono (h : self.DecisionLogged log tx d) (grown : log <+: log') :
    self.DecisionLogged log' tx d := by
  obtain ⟨e, he, rest⟩ := h
  exact ⟨e, (Log.history_prefix grown _ _).subset he, rest⟩

theorem Logged.summary (h : self.Logged log t) :
    t.Summarizes (Log.history log self.id t.id) :=
  Transaction.summarizes_of_replay h

theorem Logged.wellFormed (h : self.Logged log t) : t.WellFormed :=
  Transaction.wellFormed_of_replay h

theorem Logged.begin (h : self.Logged log t) : self.BeginLogged log t.id := by
  obtain ⟨e, he, begin⟩ := h.summary.begun
  obtain ⟨members, payload, -⟩ := begin.payload
  exact ⟨e, he, begin.previous, begin.state, members, _, _, payload⟩

theorem Logged.preparing_iff (h : self.Logged log t) :
    self.PreparingLogged log t.id ↔ t.state ≠ .init :=
  h.summary.started.symm

theorem Logged.decision_iff (h : self.Logged log t) :
    self.DecisionLogged log t.id d ↔ t.decision = some d := by
  rw [h.summary.decision, List.mem_map]
  constructor
  · rintro ⟨e, he, -, -, payload⟩
    exact ⟨e, he, payload⟩
  · rintro ⟨e, he, payload⟩
    obtain ⟨previous, state⟩ := (h.summary.fits e he).decision d payload
    exact ⟨e, he, previous, state, payload⟩

theorem TakesPart.mono {p : ProcessId} (h : self.TakesPart log tx p) (grown : log <+: log') :
    self.TakesPart log' tx p := by
  obtain ⟨e, he, rest⟩ := h
  exact ⟨e, (Log.history_prefix grown _ _).subset he, rest⟩

theorem Logged.takesPart_iff {p : ProcessId} (h : self.Logged log t) :
    self.TakesPart log t.id p ↔ t.participants.contains p = true := by
  constructor
  · rintro ⟨e, he, members, operations, deadline, payload, member⟩
    obtain ⟨members', payload', same⟩ := ((h.summary.fits e he).begin _ _ _ payload).payload
    rw [payload] at payload'
    cases payload'
    rw [same]
    exact SortedSet.contains_ofList.2 member
  · intro member
    obtain ⟨e, he, begin⟩ := h.summary.begun
    obtain ⟨members, payload, same⟩ := begin.payload
    rw [same] at member
    exact ⟨e, he, members, _, _, payload, SortedSet.contains_ofList.1 member⟩

theorem Logged.vote_iff {p : ProcessId} {v : Vote} (h : self.Logged log t) :
    self.VoteLogged log t.id p v ↔ t.votes.get? p = some v := by
  rw [h.summary.votes, List.mem_map]
  rfl

theorem Logged.acknowledgement_iff {p : ProcessId} (h : self.Logged log t) :
    self.AcknowledgementLogged log t.id p ↔ t.acknowledged.contains p = true := by
  rw [h.summary.acknowledged, List.mem_map]
  rfl

theorem Logged.done_iff (h : self.Logged log t) : self.DoneLogged log t.id ↔ t.state = .done :=
  h.summary.done.symm

end Logs

/-! ## Moments that are borne out -/

section Moments

variable {past : List (Moment self.role)} {m : Moment self.role} {tx : TransactionId}

theorem AsksVote.logged (h : self.AsksVote m tx) (justified : self.discipline.Justified past m) :
    ∃ t, t.id = tx ∧ self.Logged m.log t ∧ t.state = .preparing := by
  obtain ⟨resuming, messages, time, p, message, event, mem, about⟩ := h
  simp only [Justified, event] at justified
  obtain ⟨-, t, logged, -, preparing, rfl⟩ := justified
  obtain ⟨p', -, same⟩ := List.mem_map.1 mem
  cases same
  exact ⟨t, about, logged, preparing⟩

theorem SendsDecision.logged {d : Decision} (h : self.SendsDecision m tx d)
    (justified : self.discipline.Justified past m) :
    ∃ t, t.id = tx ∧ self.Logged m.log t ∧ t.decision = some d := by
  obtain ⟨message, participants, time, event, about, carries⟩ := h
  simp only [Justified, event] at justified
  obtain ⟨-, t, logged, -, id, decided, -⟩ := justified
  exact ⟨t, id.symm.trans about, logged, carries ▸ decided⟩

theorem AnswersQuery.logged {answer : Option Decision} (h : self.AnswersQuery m tx answer)
    (justified : self.discipline.Justified past m) :
    Log.history m.log self.id tx = [] ∧ answer = some .abort ∨
      ∃ t, t.id = tx ∧ self.Logged m.log t ∧ answer = t.decision := by
  unfold AnswersQuery at h
  simp only [Justified, h] at justified
  exact justified

theorem ReturnsOutcome.logged {outcome : Outcome} (h : self.ReturnsOutcome m tx outcome)
    (justified : self.discipline.Justified past m) :
    ∃ t d, t.id = tx ∧ self.Logged m.log t ∧ t.decision = some d ∧ outcome = d.outcome := by
  obtain ⟨participants, operations, timeout, result, event, rfl, rfl⟩ := h
  simp only [Justified, event] at justified
  obtain ⟨t, d, logged, about, decided, same⟩ := justified
  exact ⟨t, d, about.symm, logged, decided, same⟩

end Moments

/-! ## What has been said to a participant -/

section Said

variable {s : Scene self.role} {past past' : List (Moment self.role)} {p : ProcessId}

theorem Requests.mono {resuming : Bool} {message : PrepareMessage}
    (h : self.Requests past resuming p message) (sub : past <+: past') :
    self.Requests past' resuming p message := by
  obtain ⟨call, messages, time, log, asked, mem⟩ := h
  exact ⟨call, messages, time, log, sub.subset asked, mem⟩

theorem Sends.mono {message : DecisionMessage} (h : self.Sends past p message)
    (sub : past <+: past') : self.Sends past' p message := by
  obtain ⟨call, participants, time, log, asked, mem⟩ := h
  exact ⟨call, participants, time, log, sub.subset asked, mem⟩

/-- Who is asked for a vote takes part. -/
theorem Requests.takesPart {resuming : Bool} {message : PrepareMessage}
    (h : self.Requests s.past resuming p message) (sound : self.discipline.Sound s) :
    self.TakesPart s.log message.transaction p := by
  obtain ⟨call, messages, time, log, asked, mem⟩ := h
  obtain ⟨before, -, -, -, -, justified⟩ := sound.chronicle.justified asked
  obtain ⟨-, t, logged, -, -, rfl⟩ := justified
  obtain ⟨p', pending, same⟩ := List.mem_map.1 mem
  cases same
  refine TakesPart.mono (logged.takesPart_iff.2 ?_) (sound.grown _ asked)
  exact SortedSet.mem_toList_iff.1 (List.mem_filter.1 pending).1

/-- Who is told a decision takes part, and the decision is logged. -/
theorem Sends.takesPart {message : DecisionMessage} (h : self.Sends s.past p message)
    (sound : self.discipline.Sound s) :
    self.TakesPart s.log message.transaction p ∧
      self.DecisionLogged s.log message.transaction message.decision := by
  obtain ⟨call, participants, time, log, asked, mem⟩ := h
  obtain ⟨before, -, -, -, -, justified⟩ := sound.chronicle.justified asked
  obtain ⟨-, t, logged, -, about, decided, rfl⟩ := justified
  have grown := sound.grown _ asked
  rw [about]
  refine ⟨TakesPart.mono (logged.takesPart_iff.2 ?_) grown,
    (logged.decision_iff.2 decided).mono grown⟩
  exact SortedSet.mem_toList_iff.1 (List.mem_filter.1 mem).1

end Said

/-! ## What entries rest on -/

section Entries

variable {s : Scene self.role} {tx : TransactionId}

/-- A transaction with entries is logged. -/
theorem exists_logged (sound : self.discipline.Sound s)
    (known : Log.history s.log self.id tx ≠ []) : ∃ t, t.id = tx ∧ self.Logged s.log t := by
  cases sound.kept tx with
  | unknown empty _ => exact absurd empty known
  | @known t id replay _ _ => exact ⟨t, id, by rw [Logged, id]; exact replay⟩

/-- Nobody comes to take part in a transaction that has begun. -/
theorem TakesPart.of_prefix {log : List Entry} {p : ProcessId} (sound : self.discipline.Sound s)
    (grown : log <+: s.log) {t : Transaction} (logged : self.Logged log t)
    (h : self.TakesPart s.log t.id p) : self.TakesPart log t.id p := by
  obtain ⟨e, he, begin⟩ := logged.summary.begun
  have he' := (Log.history_prefix grown self.id t.id).subset he
  obtain ⟨t', same, logged'⟩ := exists_logged sound (List.ne_nil_of_mem he')
  obtain ⟨members, payload, -⟩ := begin.payload
  rw [← same] at he' h
  obtain ⟨members', payload', participants⟩ :=
    ((logged'.summary.fits e he').begin _ _ _ payload).payload
  obtain rfl := (Payload.begin.inj (payload.symm.trans payload')).1
  refine ⟨e, he, members, _, _, payload, ?_⟩
  have member := logged'.takesPart_iff.1 h
  rw [participants] at member
  exact SortedSet.contains_ofList.1 member

/-- One decision is logged. -/
theorem DecisionLogged.unique {d d' : Decision} (sound : self.discipline.Sound s)
    (h : self.DecisionLogged s.log tx d) (h' : self.DecisionLogged s.log tx d') : d' = d := by
  obtain ⟨t, rfl, logged⟩ := exists_logged sound h.history_ne_nil
  have decided := logged.decision_iff.1 h
  rw [logged.decision_iff.1 h', Option.some.injEq] at decided
  exact decided

/-- Votes and acknowledgements that are entered have been heard. -/
theorem heard_of_mem {e : Entry} (sound : self.discipline.Sound s)
    (he : e ∈ Log.history s.log self.id tx) :
    ∃ call, (∀ p v, e.payload = .vote p v → self.HeardVote s.past call tx p v) ∧
      ∀ p, e.payload = .acknowledged p → self.HeardAcknowledgement s.past call tx p := by
  obtain ⟨mem, rfl, own⟩ := Log.mem_history_iff.1 he
  obtain ⟨before, call, log, sub, -, -, -, extends_⟩ := sound.asked_of_mem mem own
  have sub := (List.prefix_append _ _).trans sub
  cases extends_ with
  | begin _ _ begin _ =>
    obtain ⟨members, begins, -⟩ := (Transaction.ofBegin?_eq_some begin).1.payload
    simp [begins]
  | advance _ apply vote acknowledged =>
    obtain ⟨next, about, -⟩ := Transaction.apply_eq_new_iff.1 apply
    rw [about]
    exact ⟨call, fun p v h => (vote p v h).mono sub, fun p h => (acknowledged p h).mono sub⟩

/-- An acknowledgement is awaited of the decision that is logged. -/
theorem decisionLogged_of_awaited {message : DecisionMessage} {awaited : List ProcessId}
    {reply : Option (Reply awaited Unit)} {call : ℕ} {log : List Entry}
    (sound : self.discipline.Sound s)
    (h : ⟨call, .answered (.inr (.awaitAcknowledgement message awaited)) reply, log⟩ ∈ s.past) :
    self.DecisionLogged s.log message.transaction message.decision := by
  obtain ⟨log', asked⟩ := sound.chronicle.asked h
  obtain ⟨before, -, -, -, -, justified⟩ := sound.chronicle.justified asked
  obtain ⟨-, t, logged, about, decided⟩ := justified
  rw [about]
  exact (logged.decision_iff.2 decided).mono (sound.grown _ asked)

end Entries

/-! ## The discipline in a run -/

section Steps

variable {n n' : Node self.role} {op : Operation}

/-- An answer that is allowed is borne out. -/
theorem Allows.justified {call : ℕ} {q : self.role.Request} {a : self.role.Answer q}
    {log : List Entry} (h : self.Allows n op ⟨call, .answered q a, log⟩) :
    self.discipline.Justified n.past ⟨call, .answered q a, log⟩ := by
  cases q with
  | inl q => trivial
  | inr q =>
    cases q with
    | freshId => exact h.fresh a rfl
    | _ => trivial

/-- A call that is allowed to go on does not get into the way of another. -/
theorem Allows.free {m : Moment self.role} (h : self.Allows n op m)
    (chronicle : self.discipline.Chronicle (n.past ++ [m])) {other : ℕ} {t : Thread self.role}
    (rests : n.threads other = some t) (ne : other ≠ m.call) :
    Disjoint (self.claims n.past other t.operation) (self.claims (n.past ++ [m]) m.call op) :=
  (disjoint_claims chronicle ne (h.turn other t rests ne)).mono_left
    (claims_mono (List.prefix_append _ _))

theorem tolerates {allows : Operation → Moment self.role → Prop}
    (allowed : ∀ op m, allows op m → self.Allows n op m) : self.discipline.Tolerates n allows where
  starts _ _ _ _ := trivial
  answers _ _ _ _ _ h := (allowed _ _ h).justified
  free _ _ h chronicle _ _ rests ne := (allowed _ _ h).free chronicle rests ne

theorem holds_step {allows : Operation → Moment self.role → Prop}
    (holds : self.discipline.Holds n) (step : n.Step allows n')
    (allowed : ∀ op m, allows op m → self.Allows n op m) : self.discipline.Holds n' :=
  Discipline.holds_step discipline_lawful obeyed holds step (tolerates allowed)

end Steps

theorem Reachable.holds {n : Node self.role} (h : self.Reachable n) : self.discipline.Holds n := by
  induction h with
  | initial => exact Discipline.holds_initial discipline_lawful
  | step _ step ih => exact holds_step ih step fun _ _ h => h

/-- A call panics only where it has calls out, and the time at which it would cease to wait for
their replies is beyond what its clock can tell. -/
theorem Reachable.overruns {n : Node self.role} (h : self.Reachable n) {call : ℕ}
    {log : List Entry} (panics : ⟨call, .asked (.inr .panic), log⟩ ∈ n.past) :
    self.Overruns n.past call := by
  obtain ⟨before, sub, -, -, -, justified⟩ := h.holds.chronicle.justified panics
  exact justified.2.mono ((List.prefix_append _ _).trans sub)

/-- What operations aim at, however they are answered, they come to in every run. -/
theorem Reachable.prospers {A : Aim self.role} {covers : Operation → Prop} {n : Node self.role}
    (h : self.Reachable n) (good : ∀ q a, A.Good q a)
    (aims : ∀ call op s, covers op → self.discipline.Sound s → (∀ m ∈ s.past, m.call ≠ call) →
      (self.run op s.memory).Meets (self.discipline.favoured A call op)
        (Discipline.Succeeds A call op) (s.note call (.started op))) :
    self.discipline.Prospers A (fun _ => covers) n := by
  induction h with
  | initial =>
    refine .of_new (Discipline.holds_initial discipline_lawful) ?_
    exact fun _ _ _ _ hm => nomatch hm
  | @step n n' before step ih =>
    refine ih.step discipline_lawful obeyed before.holds step (tolerates fun _ _ h => h) ?_ ?_
    · exact fun call op _ covered new => aims call op n.toScene covered before.holds.toSound new
    · exact fun _ t a _ _ _ _ => good t.question a

end AtomicCommit.Coordinator

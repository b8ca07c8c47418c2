import AtomicCommit.Proofs.Coordinator.WriteAhead
import AtomicCommit.Proofs.Process.Cue
import AtomicCommit.Proofs.Process.Progress

/-!
# What comes of beginning a transaction

A begin is refused, fails, or ends with an outcome, and each for its own reasons only. It is refused
if the request makes no sense, and has then done nothing. It fails if an entry could not be stored
that its transaction can not go on without, and has then sent no decision. Otherwise the outcome is
what the votes in the log determine, whoever has acknowledged it.

## Main definitions

* `Coordinator.Begun`: how a begin has come to its result.

## Main results

* `Coordinator.Reachable.begun`: every begin that has ended has come to its result so.
* `Coordinator.begin_keeps_its_contract`: the result tells exactly what has happened.
-/

namespace AtomicCommit.Coordinator

variable {self : Coordinator} {call : ℕ} {participants : SortedSet ProcessId}
  {operations : Assignment} {timeout : Duration} {tx : TransactionId}

/-! ## A single call -/

/-- How a begin has come to its result. -/
inductive Begun (c : Coordinator) (past : List (Moment c.role)) (call : ℕ) (log : List Entry)
    (participants : SortedSet ProcessId) (operations : Assignment) (timeout : Duration) :
    Except CommitError CommitOutcome → Prop where
  /-- The request makes no sense, and nothing has been asked. -/
  | refused {request : RequestError} (reason : Misconceived participants operations request)
      (quiet : ∀ q log', ⟨call, .asked q, log'⟩ ∉ past) :
      Begun c past call log participants operations timeout (.error (.invalidRequest request))
  /-- The deadline can not be represented, and nothing but the time has been asked. -/
  | late {now : Timestamp} (first : firstClock? past call = some now)
      (reason : now.add? timeout = none)
      (quiet : ∀ q log', ⟨call, .asked q, log'⟩ ∈ past → q = .inl .now) :
      Begun c past call log participants operations timeout
        (.error (.invalidRequest (.timeoutRange timeout)))
  /-- An entry could not be stored that the transaction can not go on without. -/
  | failed {cause : LogError} (granted : c.Granted participants operations timeout past call)
      (reason : c.Failed past call) :
      Begun c past call log participants operations timeout (.error (.log cause))
  /-- The transaction is decided as the votes determine. -/
  | ended {outcome : CommitOutcome} {t : Transaction} {d : Decision}
      (granted : c.Granted participants operations timeout past call)
      (unfailed : ¬c.Failed past call) (drawn : c.Drawn past call t.id)
      (concludes : c.Concludes log t.id t d outcome) (same : t.participants = participants)
      (heeds : d = t.tally.getD .abort) :
      Begun c past call log participants operations timeout (.ok outcome)

/-- What a begin aims at, however it is answered: to come to its result in one of these ways. -/
def beginning (c : Coordinator) : Aim c.role where
  Good _ _ := True
  Fits past m :=
    match m.event with
    | .returned (.begin participants operations timeout) result =>
      c.Begun past m.call m.log participants operations timeout result
    | _ => True

/-- A begin comes to its result so, however it is answered. -/
theorem begin_begun {s : Scene self.role} (sound : self.discipline.Sound s)
    (new : ∀ m ∈ s.past, m.call ≠ call) :
    (self.run (.begin participants operations timeout) s.memory).Meets
      (self.discipline.favoured self.beginning call (.begin participants operations timeout))
      (Discipline.Succeeds self.beginning call (.begin participants operations timeout))
      (s.note call (.started (.begin participants operations timeout))) := by
  have started := momentsOf_note s call (.started (.begin participants operations timeout))
  rw [momentsOf_others new, List.nil_append] at started
  have calm : self.Calm call (.begin participants operations timeout) _ _ := calm_start sound new
  refine Discipline.meets_favoured ?_ fun _ _ _ => trivial
  refine Action.Meets.program (meets_begin calm ?_ ?_ ?_ ?_ ?_ ?_)
  · rintro tx ⟨log, drawn⟩
    have drawn := mem_momentsOf drawn rfl
    rw [started, List.mem_singleton] at drawn
    cases drawn
  · rw [firstClock?, started]
    rfl
  · refine fun request reason => .refused reason fun q log asked => ?_
    have asked := mem_momentsOf asked rfl
    rw [started, List.mem_singleton] at asked
    cases asked
  · refine fun now memory' s' regains first reason => .late first reason fun q log asked => ?_
    have asked := mem_momentsOf asked rfl
    rw [regains.own, started] at asked
    simp only [List.cons_append, List.nil_append, List.mem_cons, Moment.mk.injEq, reduceCtorEq,
      Event.asked.injEq, false_and, and_false, false_or, List.not_mem_nil, or_false] at asked
    exact asked.2.1
  · intro outcome t d memory' s' granted drawn concludes same heeds calm
    exact .ended granted calm.unfailed drawn concludes same heeds
  · intro failure memory' s' granted _ misses
    obtain ⟨cause, rfl⟩ := misses.refused
    exact .failed granted misses.noted

/-! ## Runs -/

section Runs

variable {n : Node self.role}

theorem Reachable.closed (h : self.Reachable n) : n.Closed := by
  induction h with
  | initial => exact ⟨fun _ _ _ _ hm => (nomatch hm), .nil⟩
  | step _ step ih => exact ih.step step

/-- What else has happened in a call that has ended had happened before. -/
theorem mem_iff_of_returned {past before : List (Moment self.role)} {op : Operation}
    {result : op.Result} {log log' : List Entry} {event : Event self.role}
    (own : momentsOf past call = momentsOf before call ++ [⟨call, .returned op result, log⟩])
    (other : ∀ op result, event ≠ .returned op result) :
    ⟨call, event, log'⟩ ∈ past ↔ ⟨call, event, log'⟩ ∈ before := by
  constructor
  · intro h
    refine (mem_or_of_momentsOf own h rfl).resolve_right fun last => ?_
    cases List.mem_singleton.1 last
    exact other op result rfl
  · intro h
    have mem : ⟨call, event, log'⟩ ∈ momentsOf past call := by
      rw [own]
      exact List.mem_append_left _ (mem_momentsOf h rfl)
    exact mem_of_mem_momentsOf mem

/-- What is known of a begin that has ended: the facts by which it has come to its result still
hold. -/
theorem Begun.of_before {before : List (Moment self.role)} {log : List Entry}
    {result : Except CommitError CommitOutcome}
    (h : self.Begun before call log participants operations timeout result)
    (own : momentsOf n.past call = momentsOf before call ++
      [⟨call, .returned (.begin participants operations timeout) result, log⟩]) :
    self.Begun n.past call log participants operations timeout result := by
  have same : ∀ {event log'}, (∀ op result, event ≠ .returned op result) →
      (⟨call, event, log'⟩ ∈ n.past ↔ ⟨call, event, log'⟩ ∈ before) :=
    fun other => mem_iff_of_returned own other
  have clock : firstClock? n.past call = firstClock? before call := by
    rw [firstClock?, own, List.findSome?_append]
    exact Option.or_none
  have failed : self.Failed n.past call ↔ self.Failed before call := by
    constructor
    · rintro ⟨e, failure, log', vital, fails⟩
      exact ⟨e, failure, log', vital, (same (by simp)).1 fails⟩
    · rintro ⟨e, failure, log', vital, fails⟩
      exact ⟨e, failure, log', vital, (same (by simp)).2 fails⟩
  have granted : self.Granted participants operations timeout n.past call ↔
      self.Granted participants operations timeout before call := by
    constructor
    · rintro ⟨sensible, inTime⟩
      exact ⟨sensible, clock ▸ inTime⟩
    · rintro ⟨sensible, inTime⟩
      exact ⟨sensible, clock.symm ▸ inTime⟩
  cases h with
  | refused reason quiet =>
    exact .refused reason fun q log' => (same (by simp)).not.2 (quiet q log')
  | late first reason quiet =>
    exact .late (clock.trans first) reason fun q log' asked =>
      quiet q log' ((same (by simp)).1 asked)
  | failed granted' reason => exact .failed (granted.2 granted') (failed.2 reason)
  | ended granted' unfailed drawn concludes participants heeds =>
    obtain ⟨log', drawn⟩ := drawn
    exact .ended (granted.2 granted') (failed.not.2 unfailed)
      ⟨log', (same (by simp)).2 drawn⟩ concludes participants heeds

/-- A begin that has ended has come to its result so. -/
theorem Reachable.begun (h : self.Reachable n) {result : Except CommitError CommitOutcome}
    {log : List Entry}
    (returned : ⟨call, .returned (.begin participants operations timeout) result, log⟩ ∈ n.past) :
    self.Begun n.past call log participants operations timeout result := by
  have begins : self.discipline.Prospers self.beginning (fun _ op =>
      ∃ participants operations timeout, op = .begin participants operations timeout) n := by
    refine h.prospers (fun _ _ => trivial) ?_
    rintro call _ s ⟨participants, operations, timeout, rfl⟩ sound new
    exact begin_begun sound new
  obtain ⟨before, sub, fits⟩ := begins.ends _ _ _ _ returned ⟨_, _, _, rfl⟩
  exact Begun.of_before fits (h.closed.momentsOf sub)

/-- What a begin has failed to store is one of these entries, or it can go on without. -/
theorem opens_or_decides (h : self.Reachable n) {e : Entry} {failure : LogError}
    {log : List Entry}
    (fails : ⟨call, .answered (.inl (.append e)) (.error failure), log⟩ ∈ n.past)
    (vital : e.isVital = true) : e.Opens ∨ e.Decides := by
  obtain ⟨log', asked⟩ := h.holds.chronicle.asked fails
  obtain ⟨before, -, -, -, -, justified⟩ := h.holds.chronicle.justified asked
  obtain ⟨-, -, -, extends_⟩ := justified
  cases extends_ with
  | begin _ _ begins _ =>
    obtain ⟨members, payload, -⟩ := (Transaction.ofBegin?_eq_some begins).1.payload
    exact .inl (.inl ⟨_, _, _, payload⟩)
  | advance _ apply _ _ =>
    obtain ⟨next, -, -, state, advances, -⟩ := Transaction.apply_eq_new_iff.1 apply
    generalize carries : e.payload = payload at advances
    cases advances with
    | start _ => exact .inl (.inr ⟨state, carries⟩)
    | vote v _ _ _ => exact .inr (.inl ⟨_, v, carries⟩)
    | decision _ _ _ => exact .inr (.inr ⟨_, carries⟩)
    | acknowledged _ _ _ _ => simp [Entry.isVital, carries] at vital
    | finish _ _ => simp [Entry.isVital, carries, state, CoordinatorState.toState] at vital

/-- A begin that has failed to store such an entry has sent no decision. -/
theorem unsent_of_failed (h : self.Reachable n) (begins : self.Begins n.past call)
    (failed : self.Failed n.past call) {m : Moment self.role} (hm : m ∈ n.past)
    (same : m.call = call) (tx : TransactionId) (d : Decision) : ¬self.SendsDecision m tx d := by
  have chronicle := h.holds.chronicle
  obtain ⟨e, failure, log, vital, fails⟩ := failed
  intro sends
  have missed : self.FailsToStore ⟨call, .answered (.inl (.append e)) (.error failure), log⟩ e :=
    ⟨failure, rfl⟩
  -- what it has sent is about the transaction that it has drawn, as is the entry
  obtain ⟨before, sub, -, -, -, justified⟩ := chronicle.justified hm
  have entitled := sends.messages.entitled justified
  rw [same] at entitled
  obtain rfl : tx = e.transaction := drawn_once chronicle (missed.drawn chronicle fails begins)
    (begins.drawn chronicle ((List.prefix_append _ _).trans sub) entitled)
  obtain ⟨unopened, undecided⟩ :=
    before_append_of_fails chronicle fails hm same missed vital sends.messages
  rcases opens_or_decides h fails vital with opens | decides
  · exact unopened opens sends.messages
  · exact undecided decides d sends

/-- A call that has drawn no identifier, and has asked for nothing but the time, has left log and
memory alone whenever it went on. -/
theorem untouched_of_quiet {n₁ n₂ : Node self.role} (h : self.Reachable n)
    {log : List Entry}
    (started : ⟨call, .started (.begin participants operations timeout), log⟩ ∈ n.past)
    (undrawn : ∀ tx, ¬self.Drawn n.past call tx)
    (quiet : ∀ q log', ⟨call, .asked q, log'⟩ ∈ n.past → q = .inl .now)
    (before : self.Reachable n₁) (step : n₁.Step (self.Allows n₁) n₂) (sub : n₂.past <+: n.past)
    (goesOn : momentsOf n₂.past call ≠ momentsOf n₁.past call) :
    n₂.log = n₁.log ∧ n₂.memory = n₁.memory := by
  have tolerated : self.discipline.Tolerates n₁ (self.Allows n₁) :=
    tolerates fun _ _ allowed => allowed
  -- what the call does not claim it leaves as it is, and it claims nothing
  have unclaimed : ∀ past, past <+: n.past → ∀ tx,
      tx ∉ self.claims past call (.begin participants operations timeout) :=
    fun past sub tx drawn => undrawn tx (Drawn.mono drawn sub)
  have own : ∀ {op log'}, ⟨call, .started op, log'⟩ ∈ n.past →
      op = .begin participants operations timeout :=
    fun started' => h.holds.chronicle.started_unique started started'
  cases step with
  | @start other op new allowed =>
    by_cases same : other = call
    · subst same
      obtain ⟨event, past, -⟩ := Node.settle_past (n₁.note other (.started op)) n₁.threads other op
        (self.role.program op n₁.memory)
      have grown := (past ▸ List.prefix_append _ _ : (n₁.note other (.started op)).past <+: _)
      obtain rfl := own (sub.subset (grown.subset (List.mem_append_right _ (.head _))))
      refine ⟨Node.settle_log .., SortedMap.eq_of_get?_eq fun tx => ?_⟩
      exact (Discipline.frame_start obeyed before.holds tolerated new allowed
        (unclaimed _ (grown.trans sub) tx)).1
    · refine absurd ?_ goesOn
      rw [momentsOf_settle_of_ne (Ne.symm same), momentsOf_note_of_ne (Ne.symm same)]
  | @answer other t a log' rests answers allowed =>
    by_cases same : other = call
    · subst same
      have waits := before.holds.waits other t rests
      obtain ⟨event, past, -⟩ := Node.settle_past
        ({ n₁.toScene with log := log' }.note other (.answered t.question a)) n₁.threads other
        t.operation (t.next (a, n₁.memory))
      have grown := (past ▸ List.prefix_append _ _ :
        ({ n₁.toScene with log := log' }.note other (.answered t.question a)).past <+: _)
      have old : n₁.past <+: n.past := ((List.prefix_append _ _).trans grown).trans sub
      obtain ⟨log₁, started'⟩ := waits.started
      have begins := own (old.subset started')
      obtain ⟨log₂, asked⟩ := waits.asked
      obtain ⟨-, earlier, later, past', -⟩ := eq_append_of_lastOf asked
      have clock := quiet _ _ (old.subset (past' ▸ List.mem_append_right _ (.head _)))
      refine ⟨?_, SortedMap.eq_of_get?_eq fun tx => ?_⟩
      · rw [Node.settle_log]
        exact Discipline.answers_of_not_append (by rw [clock]; rfl) _ _ answers
      · refine (Discipline.frame_answer discipline_lawful before.holds tolerated rests answers
          allowed ?_).1
        rw [begins]
        exact unclaimed _ (grown.trans sub) tx
    · refine absurd ?_ goesOn
      rw [momentsOf_settle_of_ne (Ne.symm same), momentsOf_note_of_ne (Ne.symm same)]
  | restart => exact absurd rfl goesOn
  | share _ => exact absurd rfl goesOn

/-- An entry that a transaction can not go on without could not be stored: one that begins it or
opens its votes, a vote, or a decision. -/
theorem failed_iff (h : self.Reachable n) : self.Failed n.past call ↔
    ∃ m ∈ n.past, m.call = call ∧ ∃ e, self.FailsToStore m e ∧ (e.Opens ∨ e.Decides) := by
  constructor
  · rintro ⟨e, failure, log, vital, fails⟩
    exact ⟨_, fails, rfl, e, ⟨failure, rfl⟩, opens_or_decides h fails vital⟩
  · rintro ⟨⟨call, _, log⟩, hm, rfl, e, ⟨failure, rfl⟩, kind⟩
    refine ⟨e, failure, log, ?_, hm⟩
    rcases kind with opens | decides
    · exact opens.isVital
    · exact decides.isVital

/-- A call that has asked for nothing but the time has drawn no identifier and failed to store
nothing. -/
theorem idle_of_quiet (h : self.Reachable n)
    (quiet : ∀ q log', ⟨call, .asked q, log'⟩ ∈ n.past → q = .inl .now) :
    (∀ tx, ¬self.Drawn n.past call tx) ∧ ¬self.Failed n.past call := by
  constructor
  · rintro tx ⟨log, drawn⟩
    obtain ⟨log', asked⟩ := h.holds.chronicle.asked drawn
    cases quiet _ _ asked
  · rintro ⟨e, failure, log, -, fails⟩
    obtain ⟨log', asked⟩ := h.holds.chronicle.asked fails
    cases quiet _ _ asked

/-- The outcome of a transaction that is decided as its votes determine. -/
theorem Concludes.committed_iff {log : List Entry} {t : Transaction} {d : Decision}
    {outcome : CommitOutcome} (h : self.Concludes log tx t d outcome)
    (heeds : d = t.tally.getD .abort) :
    outcome.outcome = .committed ↔ ∀ p, t.participants.contains p = true →
      self.VoteLogged log outcome.transaction p .yes := by
  rw [h.same, h.transaction]
  simp only [h.logged.vote_iff]
  rw [← Transaction.tally_eq_commit_iff h.logged.wellFormed.voters, heeds]
  cases t.tally with
  | none => simp [Decision.outcome]
  | some d => cases d <;> simp [Decision.outcome]

/-- A transaction is done when its last entry says so. -/
theorem Logged.lastState?_eq_done_iff {log : List Entry} {t : Transaction}
    (h : self.Logged log t) : Log.lastState? log self.id t.id = some .done ↔ t.state = .done := by
  rw [Log.lastState?, h.summary.last, Option.some.injEq, CoordinatorState.toState_eq_done_iff]

/-- What the result of a begin tells, however it is answered and whatever else the coordinator does
meanwhile. It is refused exactly if nobody takes part, if there is work for a process that takes no
part, or if its deadline can not be represented by the time it has been told first; it has then
drawn no identifier, asked nothing but the time, and left log and memory alone whenever it went on.
It fails for its log exactly if an entry that begins the transaction or opens its votes, a vote, or
a decision could not be stored, whatever else could not; it has then sent no decision. It fails in
no other way. Otherwise it tells of the transaction that it has drawn: this has committed exactly if
the log holds an assent of every participant, and everybody has acknowledged exactly if the last
entry of the transaction is that it is done. A begin that panics has no result; `Reachable.overruns`
says where that is. -/
theorem begin_keeps_its_contract (h : self.Reachable n)
    {result : Except CommitError CommitOutcome} {log : List Entry}
    (returned : ⟨call, .returned (.begin participants operations timeout) result, log⟩ ∈ n.past) :
    ((∃ request, result = .error (.invalidRequest request)) ↔
      participants.isEmpty = true ∨
      (∃ p, operations.contains p = true ∧ participants.contains p = false) ∨
      ∃ now, firstClock? n.past call = some now ∧ now.add? timeout = none) ∧
    ((∃ request, result = .error (.invalidRequest request)) →
      (∀ tx, ¬self.Drawn n.past call tx) ∧
      (∀ q log', ⟨call, .asked q, log'⟩ ∈ n.past → q = .inl .now) ∧
      ∀ n₁ n₂, self.Reachable n₁ → n₁.Step (self.Allows n₁) n₂ → n₂.past <+: n.past →
        momentsOf n₂.past call ≠ momentsOf n₁.past call →
        n₂.log = n₁.log ∧ n₂.memory = n₁.memory) ∧
    ((∃ cause, result = .error (.log cause)) ↔
      ∃ m ∈ n.past, m.call = call ∧ ∃ e, self.FailsToStore m e ∧ (e.Opens ∨ e.Decides)) ∧
    ((∃ cause, result = .error (.log cause)) →
      ∀ m ∈ n.past, m.call = call → ∀ tx d, ¬self.SendsDecision m tx d) ∧
    (∀ failure, result = .error failure →
      (∃ request, failure = .invalidRequest request) ∨ ∃ cause, failure = .log cause) ∧
    ∀ outcome, result = .ok outcome →
      self.Drawn n.past call outcome.transaction ∧
      (outcome.outcome = .committed ↔ ∀ p, participants.contains p = true →
        self.VoteLogged log outcome.transaction p .yes) ∧
      (outcome.fullyAcknowledged = true ↔
        Log.lastState? log self.id outcome.transaction = some .done) := by
  obtain ⟨-, log₀, -, started⟩ := h.holds.chronicle.returned returned
  have begins : self.Begins n.past call := ⟨_, _, _, _, started⟩
  -- a request that has been granted is not one of those that are refused
  have sensible : self.Granted participants operations timeout n.past call →
      ¬(participants.isEmpty = true ∨
        (∃ p, operations.contains p = true ∧ participants.contains p = false) ∨
        ∃ now, firstClock? n.past call = some now ∧ now.add? timeout = none) := by
    rintro ⟨sensible, now, first, inTime⟩ (none | ⟨p, given, outside⟩ | ⟨now', first', late⟩)
    · exact sensible _ (.empty none)
    · exact sensible _ (.stranger given outside)
    · rw [first, Option.some.injEq] at first'
      exact inTime (first' ▸ late)
  have untouched : (∀ q log', ⟨call, .asked q, log'⟩ ∈ n.past → q = .inl .now) →
      ∀ n₁ n₂, self.Reachable n₁ → n₁.Step (self.Allows n₁) n₂ → n₂.past <+: n.past →
        momentsOf n₂.past call ≠ momentsOf n₁.past call →
        n₂.log = n₁.log ∧ n₂.memory = n₁.memory := fun quiet _ _ =>
    untouched_of_quiet h started (idle_of_quiet h quiet).1 quiet
  rw [← failed_iff h]
  cases h.begun returned with
  | @refused request reason quiet =>
    have quiet : ∀ q log', ⟨call, .asked q, log'⟩ ∈ n.past → q = .inl .now :=
      fun q log' asked => absurd asked (quiet q log')
    obtain ⟨undrawn, unfailed⟩ := idle_of_quiet h quiet
    refine ⟨iff_of_true ⟨_, rfl⟩ ?_, fun _ => ⟨undrawn, quiet, untouched quiet⟩, ?_⟩
    · rcases reason with none | ⟨given, outside⟩
      · exact .inl none
      · exact .inr (.inl ⟨_, given, outside⟩)
    · simp [unfailed]
  | @late now first reason quiet =>
    obtain ⟨undrawn, unfailed⟩ := idle_of_quiet h quiet
    refine ⟨iff_of_true ⟨_, rfl⟩ ?_, fun _ => ⟨undrawn, quiet, untouched quiet⟩, ?_⟩
    · exact .inr (.inr ⟨now, first, reason⟩)
    · simp [unfailed]
  | @failed cause granted reason =>
    refine ⟨iff_of_false (by simp) (sensible granted), by simp, iff_of_true ⟨_, rfl⟩ reason, ?_⟩
    exact ⟨fun _ m hm same => unsent_of_failed h begins reason hm same, by simp, by simp⟩
  | @ended outcome t d granted unfailed drawn concludes same heeds =>
    refine ⟨iff_of_false (by simp) (sensible granted), by simp, iff_of_false (by simp) unfailed,
      by simp, by simp, ?_⟩
    rintro _ ⟨⟩
    refine ⟨concludes.transaction ▸ drawn, ?_, ?_⟩
    · rw [← same]
      exact concludes.committed_iff heeds
    · rw [concludes.transaction, concludes.logged.lastState?_eq_done_iff]
      exact concludes.acknowledged

end Runs

/-! ## Begins of each kind -/

section Kinds

/-- A moment ends call 0, that was to begin a transaction at once. -/
def endsBegin (participants : SortedSet ProcessId) (result : Except CommitError CommitOutcome)
    (m : Moment self.role) : Bool :=
  match m.event with
  | .returned (.begin participants' operations timeout) result' =>
    m.call = 0 ∧ participants' = participants ∧ operations = ∅ ∧ timeout = .zero ∧ result' = result
  | _ => false

theorem returned_of_endsBegin {past : List (Moment self.role)}
    {result : Except CommitError CommitOutcome}
    (h : ∃ m ∈ past, endsBegin participants result m = true) :
    ∃ log, ⟨0, .returned (.begin participants ∅ .zero) result, log⟩ ∈ past := by
  obtain ⟨⟨call, event, log⟩, hm, h⟩ := h
  unfold endsBegin at h
  split at h
  · rename_i participants' operations timeout result' same
    obtain ⟨rfl, rfl, rfl, rfl, rfl⟩ := of_decide_eq_true h
    dsimp only at same
    exact ⟨log, same ▸ hm⟩
  · cases h

/-- Nobody is to take part in a transaction. -/
def emptyRun : Node (default : Coordinator).role :=
  Node.begins { outside := sending default } {} 0 (.begin ∅ ∅ .zero)

theorem reachable_emptyRun : (default : Coordinator).Reachable emptyRun :=
  attains.begins _ .initial (fun _ _ => rfl) (fun _ hm => nomatch hm)
    (allows_of_alone (fun _ _ => rfl) nofun)

/-- A begin for nobody is refused, one whose transaction can not be opened fails, and one whose
transaction commits and is acknowledged tells so. -/
theorem begin_keeps_its_contract_doneRun :
    (default : Coordinator).Reachable emptyRun ∧
    (∃ request log, ⟨0, .returned (.begin ∅ ∅ .zero) (.error (.invalidRequest request)), log⟩ ∈
      emptyRun.past) ∧
    (∀ tx, ¬(default : Coordinator).Drawn emptyRun.past 0 tx) ∧
    (default : Coordinator).Reachable refusedRun ∧
    (∃ cause log, ⟨0, .returned (.begin (SortedSet.ofList [party]) ∅ .zero)
      (.error (.log cause)), log⟩ ∈ refusedRun.past) ∧
    (∃ m ∈ refusedRun.past, m.call = 0 ∧ ∃ e, (default : Coordinator).FailsToStore m e ∧
      (e.Opens ∨ e.Decides)) ∧
    (default : Coordinator).Reachable doneRun ∧
    (∃ log, ⟨0, .returned (.begin (SortedSet.ofList [party]) ∅ .zero)
      (.ok ⟨deal, .committed, true⟩), log⟩ ∈ doneRun.past ∧
      (∀ p, (SortedSet.ofList [party]).contains p = true →
        (default : Coordinator).VoteLogged log deal p .yes) ∧
      Log.lastState? log (default : Coordinator).id deal = some .done) := by
  obtain ⟨log, refused⟩ : ∃ log, ⟨0, .returned (.begin ∅ ∅ .zero)
      (.error (.invalidRequest .noParticipants)), log⟩ ∈ emptyRun.past :=
    returned_of_endsBegin (by decide +kernel)
  obtain ⟨log', failed⟩ : ∃ log, ⟨0, .returned (.begin (SortedSet.ofList [party]) ∅ .zero)
      (.error (.log (.unavailable (.reported "disk full")))), log⟩ ∈ refusedRun.past :=
    returned_of_endsBegin (by decide +kernel)
  obtain ⟨log'', ended⟩ : ∃ log, ⟨0, .returned (.begin (SortedSet.ofList [party]) ∅ .zero)
      (.ok ⟨deal, .committed, true⟩), log⟩ ∈ doneRun.past :=
    returned_of_endsBegin (by decide +kernel)
  obtain ⟨-, undone, -⟩ := begin_keeps_its_contract reachable_emptyRun refused
  obtain ⟨-, -, missed, -⟩ := begin_keeps_its_contract reachable_refusedRun failed
  obtain ⟨-, -, -, -, -, told⟩ := begin_keeps_its_contract reachable_doneRun ended
  obtain ⟨-, committed, acknowledged⟩ := told _ rfl
  exact ⟨reachable_emptyRun, ⟨_, _, refused⟩, (undone ⟨_, rfl⟩).1, reachable_refusedRun,
    ⟨_, _, failed⟩, missed.1 ⟨_, rfl⟩, reachable_doneRun, _, ended, committed.1 rfl,
    acknowledged.1 rfl⟩

end Kinds

end AtomicCommit.Coordinator

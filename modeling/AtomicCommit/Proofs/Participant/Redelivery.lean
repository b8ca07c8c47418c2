import AtomicCommit.Proofs.Participant.Acknowledgement
import AtomicCommit.Proofs.Participant.Entries
import AtomicCommit.Proofs.Participant.Votes

/-!
# Decisions that are told again

A coordinator sends its decision until it is acknowledged, so a participant may be told a decision
any number of times. Once it has been applied, it is acknowledged from what is known and nothing is
done, and so is any other refused. Only a commit of a transaction of which nothing is known leaves
no trace: it is acknowledged, and may still be followed by an abort.

## Main definitions

* `Participant.replyAtOnce`: what a decision is answered once the transaction has been looked up.
* `Participant.Operation.Opens`: an operation may be the first to log anything of a transaction.

## Main results

* `Participant.Applied.onlyTells`, `Participant.Applied.onlyTells_other`: what is told of a decision
  that has been applied, and of the other.
* `Participant.unknown_or_opened`: who was the first to log anything of a transaction.
* `Participant.decisions_are_idempotent`: what follows an acknowledgement.
-/

namespace AtomicCommit.Participant

variable {self : ProcessId} {n n' : Node (role self)} {call : ℕ} {op : Operation}
  {tx : TransactionId} {d d' : Decision} {log : List Entry} {r : Record}

/-! ## What is answered at once -/

/-- What a decision is answered once the transaction has been looked up, unless it has to be carried
out first. -/
def replyAtOnce (self : ProcessId) (tx : TransactionId) (d : Decision) :
    Option Record → Option (Except CommitError Unit)
  | none => if d = .abort then none else some (.ok ())
  | some r =>
    if r.hasApplied d then some (.ok ())
    else if r.state = .prepared then none
    else some (.error (.invalidState (.notApplicable tx r.state self d)))

theorem tells_handleDecision (tx : TransactionId) (d : Decision) :
    Tells self tx ((role self).program (.handleDecision tx d)) (replyAtOnce self tx d)
      (fun failure => .error (.log failure)) := by
  refine tells_of_record? ?_
  intro found result memory answered
  cases found with
  | none =>
    by_cases aborts : d = .abort
    · simp [replyAtOnce, aborts] at answered
    · obtain rfl : .ok () = result := by simpa [replyAtOnce, aborts] using answered
      simp [aborts]
  | some r =>
    by_cases applied : r.hasApplied d = true
    · obtain rfl : .ok () = result := by simpa [replyAtOnce, applied] using answered
      simp [applied]
    · by_cases prepared : r.state = .prepared
      · simp [replyAtOnce, applied, prepared] at answered
      · obtain rfl : .error (.invalidState (.notApplicable tx r.state self d)) = result := by
          simpa [replyAtOnce, applied, prepared] using answered
        simp [applied, prepared]

theorem replyAtOnce_of_resolved (resolved : r.state = .resolved d) :
    replyAtOnce self tx d (some r) = some (.ok ()) := by
  simp [replyAtOnce, Record.hasApplied, resolved]

theorem replyAtOnce_of_resolved_ne (resolved : r.state = .resolved d) (ne : d' ≠ d) :
    replyAtOnce self tx d' (some r) =
      some (.error (.invalidState (.notApplicable tx (.resolved d) self d'))) := by
  cases d <;> cases d' <;>
    simp_all [replyAtOnce, Record.hasApplied, ParticipantState.resolved]

/-- Once a decision has been applied, whatever is told is answered from that. -/
theorem Applied.onlyTells_of {result : Except CommitError Unit} (applied : Applied self n.log tx d)
    (h : Reachable self n) (leads : Leads self n n')
    (answered : ∀ r : Record, r.state = .resolved d →
      replyAtOnce self tx d' (some r) = some result) :
    OnlyTells self n n' (.handleDecision tx d') tx result
      (fun failure => .error (.log failure)) := by
  refine onlyTells_of_leads h (tells_handleDecision tx d') leads fun n₁ before _ => ?_
  obtain ⟨⟨r, known, resolved⟩, -⟩ :=
    applied.mono (h.leads before).holds (Leads.grows before).log
  exact ⟨some r, known, answered r resolved⟩

/-- It is acknowledged whenever it is told again. -/
theorem Applied.onlyTells (applied : Applied self n.log tx d) (h : Reachable self n)
    (leads : Leads self n n') :
    OnlyTells self n n' (.handleDecision tx d) tx (.ok ())
      (fun failure => .error (.log failure)) :=
  applied.onlyTells_of h leads fun _ => replyAtOnce_of_resolved

/-- The other decision is refused. -/
theorem Applied.onlyTells_other (applied : Applied self n.log tx d) (h : Reachable self n)
    (ne : d' ≠ d) (leads : Leads self n n') :
    OnlyTells self n n' (.handleDecision tx d') tx
      (.error (.invalidState (.notApplicable tx (.resolved d) self d')))
      (fun failure => .error (.log failure)) :=
  applied.onlyTells_of h leads fun _ resolved => replyAtOnce_of_resolved_ne resolved ne

/-! ## Who makes a transaction known -/

/-- An operation may be the first to log anything of a transaction: it votes on it, or aborts it. -/
def Operation.Opens (tx : TransactionId) : Operation → Prop
  | .handlePrepare message => message.transaction = tx
  | .handleDecision tx' d => tx' = tx ∧ d = .abort
  | _ => False

/-- No call is at work that may be the first to log anything of a transaction. -/
def IdleFor {p : ProcessId} (n : Node (role p)) (tx : TransactionId) : Prop :=
  ∀ call t, n.threads call = some t → ¬t.operation.Opens tx

theorem Operation.Opens.locked (opens : op.Opens tx) (past : List (Moment (role self)))
    (call : ℕ) : tx ∈ locks self past call op := by
  cases op with
  | handlePrepare message => exact opens.symm
  | handleDecision tx' d => exact opens.1.symm
  | _ => cases opens

/-- What may be logged first of a transaction. -/
theorem Writes.opens {past : List (Moment (role self))} {e : Entry}
    (h : Writes self past call tx op [] e) :
    op.Opens tx ∧ ((∃ message, op = .handlePrepare message) ∨
      e.Takes tx .idle .aborted (.resolved .abort)) := by
  cases h with
  | prepare about _ => exact ⟨about, .inl ⟨_, rfl⟩⟩
  | refuse about _ => exact ⟨about, .inl ⟨_, rfl⟩⟩
  | abort takes => exact ⟨⟨rfl, rfl⟩, .inr takes⟩
  | resolve history _ _ _ => exact absurd rfl history.ne_nil

/-- A step makes a transaction known only by an entry that a resting call has asked to append. -/
theorem unknown_or_opened_of_step (h : Reachable self n) (step : n.Step (Allows self n) n')
    (unknown : Log.history n.log self tx = []) :
    Log.history n'.log self tx = [] ∨
      ∃ call t e, n.threads call = some t ∧ Writes self n.past call tx t.operation [] e ∧
        Log.history n'.log self tx = [e] := by
  rcases step.log with same | ⟨e, other, log⟩ | ⟨call, t, e, rests, question, log⟩
  · exact .inl (same ▸ unknown)
  · rw [log, Log.history_append_other _ fun own => absurd own other]
    exact .inl unknown
  · obtain ⟨own, writes⟩ := writes_of_stored h.holds (h.step step).holds rests question log
    by_cases about : e.transaction = tx
    · subst about
      rw [unknown] at writes
      refine .inr ⟨call, t, e, rests, writes, ?_⟩
      rw [log, Log.history_append_own n.log own rfl, unknown]
      rfl
    · rw [log, Log.history_append_other _ fun _ => about]
      exact .inl unknown

/-- A transaction of which nothing is known, and for which nobody is at work who might change this,
stays so until an operation starts that does. -/
theorem unknown_or_opened (h : Reachable self n) (unknown : Log.history n.log self tx = [])
    (idle : IdleFor n tx) (leads : Leads self n n') :
    Log.history n'.log self tx = [] ∨
      ∃ past call op e, StartsSince n n' call op ∧ Writes self past call tx op [] e ∧
        [e] <+: Log.history n'.log self tx := by
  induction leads with
  | refl => exact .inl unknown
  | @tail n₁ n' leads step ih =>
    rcases ih with unknown | ⟨past, call, op, e, since, writes, first⟩
    · rcases unknown_or_opened_of_step (h.leads leads) step unknown with
        unknown | ⟨call, t, e, rests, writes, only⟩
      · exact .inl unknown
      · rcases Leads.cases_of_rests leads rests with ⟨t', rests', same⟩ | since
        · exact absurd (same ▸ writes.opens.1) (idle call t' rests')
        · exact .inr ⟨n₁.past, call, t.operation, e, since.mono (.single step), writes,
            only ▸ List.prefix_rfl⟩
    · exact .inr ⟨past, call, op, e, since.mono (.single step), writes,
        first.trans (Log.history_prefix step.grows.log _ _)⟩

theorem IdleFor.leads (idle : IdleFor n tx) (leads : Leads self n n')
    (none : ∀ call op, StartsSince n n' call op → ¬op.Opens tx) : IdleFor n' tx := by
  intro call t rests
  rcases Leads.cases_of_rests leads rests with ⟨t', rests', same⟩ | since
  · exact same ▸ idle call t' rests'
  · exact none call _ since

/-- While nobody makes it known, nothing is known of a transaction. -/
theorem unknown_of_leads (h : Reachable self n) (unknown : Log.history n.log self tx = [])
    (idle : IdleFor n tx) (leads : Leads self n n')
    (none : ∀ call op, StartsSince n n' call op → ¬op.Opens tx) :
    Log.history n'.log self tx = [] := by
  rcases unknown_or_opened h unknown idle leads with
    unknown | ⟨past, call, op, e, since, writes, -⟩
  · exact unknown
  · exact absurd writes.opens.1 (none call op since)

/-- While nobody asks for a vote on it, the first that is logged of a transaction is an abort. -/
theorem unknown_or_abortedUnasked (h : Reachable self n) (unknown : Log.history n.log self tx = [])
    (idle : IdleFor n tx) (leads : Leads self n n')
    (none : ∀ call message, StartsSince n n' call (.handlePrepare message) →
      message.transaction ≠ tx) :
    Log.history n'.log self tx = [] ∨ AbortedUnasked self n'.log tx := by
  rcases unknown_or_opened h unknown idle leads with
    unknown | ⟨past, call, op, e, since, writes, first⟩
  · exact .inl unknown
  · obtain ⟨opens, ⟨message, rfl⟩ | takes⟩ := writes.opens
    · exact absurd opens (none call message since)
    · obtain ⟨found, sees⟩ := Kept.sees ((h.leads leads).holds.kept tx)
      cases found with
      | none => exact .inl sees
      | some r =>
        have only := Record.History.eq_of_prefix (.early takes) sees first (by simp)
        exact .inr ⟨e, only, takes⟩

/-- What was known before of a transaction that was aborted unasked. -/
theorem AbortedUnasked.state {log' : List Entry} (h : AbortedUnasked self log' tx)
    (grown : log <+: log') (known : Sees self log tx (some r)) : r.state = .aborted := by
  obtain ⟨e, only, takes⟩ := h
  have sub := Log.history_prefix grown self tx
  rw [only, ← List.nil_append [e], List.prefix_concat_iff] at sub
  rcases sub with whole | none
  · rw [Sees, whole] at known
    rw [Record.History.unique (.early takes) known]
  · exact absurd (List.prefix_nil.1 none) (Record.History.ne_nil known)

/-! ## After an acknowledgement -/

/-- When a decision has just been answered, the log is as it was then, for all that the participant
has logged of the transaction. -/
theorem history_of_ended {result : op.Result} (h : Reachable self n)
    (ended : n.past.getLast? = some ⟨call, .returned op result, log⟩) :
    Log.history n.log self tx = Log.history log self tx := by
  induction h with
  | initial => cases ended
  | @step n n' before step ih =>
    rcases step.cases_of_ended ended with ⟨same, -⟩ | ⟨past, -, same | ⟨e, other, same⟩⟩
    · rw [same]
    · rw [same]
      exact ih (past ▸ ended)
    · rw [same, Log.history_append_other _ fun own => absurd own other]
      exact ih (past ▸ ended)

/-- No other call is at work then that might make the transaction known. -/
theorem idle_of_ended {result : Except CommitError Unit} (h : Reachable self n)
    (ended : n.past.getLast? = some ⟨call, .returned (.handleDecision tx d) result, log⟩) :
    IdleFor n tx := by
  induction h with
  | initial => cases ended
  | @step n n' before step ih =>
    intro other t rests opens
    rcases step.cases_of_ended ended with ⟨-, ⟨m, own, allowed⟩, others⟩ | ⟨past, earlier, -⟩
    · obtain ⟨ne, rests⟩ := others other t rests
      have disjoint := allowed.turn other t rests (own ▸ ne)
      exact Set.disjoint_left.1 disjoint (opens.locked n.past other) rfl
    · exact ih (past ▸ ended) other t (earlier other t rests) opens

/-- A decision that has just been acknowledged has been applied, if anything is known of the
transaction or it is to be aborted. -/
theorem JustEnded.applied (h : Reachable self n)
    (ended : JustEnded n call (.handleDecision tx d) (.ok ()))
    (known : Log.history n.log self tx ≠ [] ∨ d = .abort) : Applied self n.log tx d := by
  obtain ⟨log, last⟩ := ended
  have returned := List.mem_of_getLast? last
  obtain ⟨⟨before, justified, -⟩, -⟩ := h.holds.chronicle.returned returned
  rcases justified with ⟨rfl, unknown⟩ | applied
  · rw [Sees, ← history_of_ended h last] at unknown
    simp [unknown] at known
  · exact (Applied.mono h.holds (h.holds.grown _ returned) applied).1

/-- Until somebody makes the transaction known, a commit of a transaction of which nothing is known
is acknowledged whenever it is told. -/
theorem onlyTells_of_unknown (h : Reachable self n) (unknown : Log.history n.log self tx = [])
    (idle : IdleFor n tx) (leads : Leads self n n')
    (none : ∀ call op, StartsSince n n' call op → ¬op.Opens tx) :
    OnlyTells self n n' (.handleDecision tx .commit) tx (.ok ())
      (fun failure => .error (.log failure)) := by
  refine onlyTells_of_leads h (tells_handleDecision tx .commit) leads fun n₁ before after => ?_
  refine ⟨Option.none, ?_, rfl⟩
  exact unknown_of_leads h unknown idle before fun call op since => none call op (since.mono after)

/-- An abort of a transaction of which nothing was known is acknowledged if its call is answered
well, as long as no vote is asked for. -/
theorem acknowledged_of_unknown (h : Reachable self n) (unknown : Log.history n.log self tx = [])
    (idle : IdleFor n tx) (leads : Leads self n n')
    (none : ∀ call message, StartsSince n n' call (.handlePrepare message) →
      message.transaction ≠ tx)
    {result : Except CommitError Unit} (since : StartsSince n n' call (.handleDecision tx .abort))
    (returned : ⟨call, .returned (.handleDecision tx .abort) result, log⟩ ∈ n'.past)
    (good : ∀ m ∈ momentsOf n'.past call, m.Hears (Good self)) : result = .ok () := by
  obtain ⟨log₀, started, -⟩ := since
  have reachable := h.leads leads
  have grown := reachable.holds.grown _ started
  refine acknowledged_of_good reachable started (fun r known => .inr ?_) good returned
  rcases unknown_or_abortedUnasked h unknown idle leads none with unknown | aborted
  · have sub := Log.history_prefix grown self tx
    rw [unknown] at sub
    exact absurd (List.prefix_nil.1 sub) (Record.History.ne_nil known)
  · exact aborted.state grown known

/-- Once such an abort has been acknowledged, it has been logged. -/
theorem abortedUnasked_of_acknowledged (h : Reachable self n)
    (unknown : Log.history n.log self tx = []) (idle : IdleFor n tx) (leads : Leads self n n')
    (none : ∀ call message, StartsSince n n' call (.handlePrepare message) →
      message.transaction ≠ tx)
    (returned : ⟨call, .returned (.handleDecision tx .abort) (.ok ()), log⟩ ∈ n'.past) :
    AbortedUnasked self n'.log tx := by
  have holds := (h.leads leads).holds
  obtain ⟨⟨before, justified, -⟩, -⟩ := holds.chronicle.returned returned
  rcases justified with ⟨commits, -⟩ | ⟨r, known, -⟩
  · cases commits
  · obtain ⟨r', known'⟩ := known_of_prefix holds (holds.grown _ returned) known
    have first := unknown_or_abortedUnasked h unknown idle leads none
    exact first.resolve_left (Record.History.ne_nil known')

/-- A participant has acknowledged a decision. If anything is known of the transaction then, or it
is to be aborted, then however the run goes on no more is logged of it. Whenever the decision is
told again the transaction is looked up and the decision acknowledged, and whenever the other is
told this is refused; a call for either asks nothing of the resource manager and changes neither log
nor memory. If nothing is known of the transaction then, it is to be committed. Until a vote on it
is asked for, or it is to be aborted, nothing is known of it, and whenever the decision is told
again it is acknowledged in the same way. An abort that is told then is acknowledged, unless
something fails, and if it is, and no vote has been asked for meanwhile, it has been logged. What a
recovery has found in the log is assumed to be left to it until it asks for the first decision
(`recoveryLocks`). -/
theorem decisions_are_idempotent {p : ProcessId} {n : Node (role p)} (h : Reachable p n)
    {call : ℕ} {tx : TransactionId} {d : Decision}
    (acknowledged : JustEnded n call (.handleDecision tx d) (.ok ())) :
    (Log.history n.log p tx ≠ [] ∨ d = .abort → ∀ n', Leads p n n' →
      Log.history n'.log p tx = Log.history n.log p tx ∧ Applied p n'.log tx d ∧
      OnlyTells p n n' (.handleDecision tx d) tx (.ok ()) (fun failure => .error (.log failure)) ∧
      ∀ d', d' ≠ d → OnlyTells p n n' (.handleDecision tx d') tx
        (.error (.invalidState (.notApplicable tx (.resolved d) p d')))
        (fun failure => .error (.log failure))) ∧
    (Log.history n.log p tx = [] → d = .commit ∧ ∀ n', Leads p n n' →
      (∀ call op, StartsSince n n' call op → ¬op.Opens tx) →
      Log.history n'.log p tx = [] ∧
      OnlyTells p n n' (.handleDecision tx .commit) tx (.ok ())
        (fun failure => .error (.log failure)) ∧
      Accepts n' tx .abort ∧
      ∀ n'', Leads p n' n'' →
        (∀ call message, StartsSince n' n'' call (.handlePrepare message) →
          message.transaction ≠ tx) →
        ∀ call result log, StartsSince n' n'' call (.handleDecision tx .abort) →
          ⟨call, .returned (.handleDecision tx .abort) result, log⟩ ∈ n''.past →
          ((∀ m ∈ momentsOf n''.past call, m.Hears (Good p)) → result = .ok ()) ∧
          (result = .ok () → AbortedUnasked p n''.log tx)) := by
  constructor
  · intro known n' leads
    have applied := acknowledged.applied h known
    obtain ⟨applied', same⟩ := applied.mono (h.leads leads).holds (Leads.grows leads).log
    exact ⟨same, applied', applied.onlyTells h leads,
      fun d' ne => applied.onlyTells_other h ne leads⟩
  · intro unknown
    have commits : d = .commit := by
      by_contra aborts
      obtain ⟨r, known, -⟩ := acknowledged.applied h (.inr (by cases d <;> simp_all))
      exact Record.History.ne_nil known unknown
    obtain ⟨log, last⟩ := acknowledged
    have idle := idle_of_ended h last
    refine ⟨commits, fun n' leads none => ?_⟩
    have reachable := h.leads leads
    have unknown' := unknown_of_leads h unknown idle leads none
    have idle' := idle.leads leads none
    refine ⟨unknown', onlyTells_of_unknown h unknown idle leads none, ?_, ?_⟩
    · exact accepts_of_agrees reachable fun r known =>
        absurd unknown' (Record.History.ne_nil known)
    · intro n'' leads' unasked call result log since returned
      constructor
      · exact acknowledged_of_unknown reachable unknown' idle' leads' unasked since returned
      · rintro rfl
        exact abortedUnasked_of_acknowledged reachable unknown' idle' leads' unasked returned

/-! ## A decision that is told again -/

section Repeats

/-- Who has committed forgets the transaction. -/
def forgettingRun : Node (role cohort) :=
  resolvedRun.begins { outside := willing cohort } 2 (.forget proposal.transaction)

/-- It is told to commit again. -/
def reassuredRun : Node (role cohort) :=
  forgettingRun.begins { outside := willing cohort } 3
    (.handleDecision proposal.transaction .commit)

/-- It is told to abort. -/
def redeliveredRun : Node (role cohort) :=
  reassuredRun.begins { outside := willing cohort } 4 (.handleDecision proposal.transaction .abort)

/-- A participant that knows nothing is told to commit. -/
def unawareRun : Node (role cohort) :=
  Node.begins { outside := willing cohort } {} 0 (.handleDecision proposal.transaction .commit)

/-- It is told to abort. -/
def correctedRun : Node (role cohort) :=
  unawareRun.begins { outside := willing cohort } 1 (.handleDecision proposal.transaction .abort)

theorem startsSince_of_head {p : ProcessId} {n n' : Node (role p)} {call : ℕ} {op : Operation}
    {log : List Entry} (new : n.Unstarted call)
    (first : (momentsOf n'.past call).head? = some ⟨call, .started op, log⟩) :
    StartsSince n n' call op :=
  ⟨log, mem_of_mem_momentsOf (List.mem_of_head? first), fun old => new _ old rfl⟩

theorem reachable_resolvedRun : Reachable cohort resolvedRun :=
  attains.moves _ reachable_storingRun alone_storingRun

theorem rested_resolvedRun : resolvedRun.Rested 2 where
  idle other := by
    by_cases same : other = 1
    · rw [same]
      rfl
    · exact Node.alone_moves alone_storingRun other same
  earlier := by decide +kernel

theorem leads_redeliveredRun : Leads cohort resolvedRun redeliveredRun := by
  have rested : resolvedRun.Rested 2 := rested_resolvedRun
  have rested' : forgettingRun.Rested 3 := rested.begins rfl
  have rested'' : reassuredRun.Rested 4 := rested'.begins rfl
  have forgets : Leads cohort resolvedRun forgettingRun :=
    begins_of_rested Leads.attains .refl rested
  have reassures : Leads cohort resolvedRun reassuredRun :=
    begins_of_rested Leads.attains forgets rested'
  exact begins_of_rested Leads.attains reassures rested''

theorem reachable_unawareRun : Reachable cohort unawareRun :=
  begins_of_rested attains .initial Node.rested_initial

theorem rested_unawareRun : unawareRun.Rested 1 := Node.rested_initial.begins rfl

theorem leads_correctedRun : Leads cohort unawareRun correctedRun :=
  begins_of_rested Leads.attains .refl rested_unawareRun

/-- No vote is asked for. -/
theorem unasked_correctedRun (call : ℕ) (message : PrepareMessage) (log : List Entry) :
    ⟨call, .started (.handlePrepare message), log⟩ ∉ correctedRun.past := by
  intro started
  have chronicle := (reachable_unawareRun.leads leads_correctedRun).holds.chronicle
  have rested : correctedRun.Rested 2 := rested_unawareRun.begins rfl
  have calls : call = 0 ∨ call = 1 := by
    have earlier : call < 2 := rested.earlier _ started
    omega
  have first : (momentsOf correctedRun.past 0).head? =
      some ⟨0, .started (.handleDecision proposal.transaction .commit), []⟩ := rfl
  have second : (momentsOf correctedRun.past 1).head? =
      some ⟨1, .started (.handleDecision proposal.transaction .abort), []⟩ := rfl
  have head := chronicle.head_of_started started
  rcases calls with rfl | rfl
  · cases head.symm.trans first
  · cases head.symm.trans second

/-- Who has committed and forgotten it reads its log, acknowledges the commit again and refuses the
abort. Who has acknowledged a commit of a transaction it knew nothing of logs the abort. -/
theorem decisions_are_idempotent_redeliveredRun :
    (Reachable cohort resolvedRun ∧
      JustEnded resolvedRun 1 (.handleDecision proposal.transaction .commit) (.ok ()) ∧
      Leads cohort resolvedRun redeliveredRun ∧
      LooksUp cohort 3 (.handleDecision proposal.transaction .commit) proposal.transaction (.ok ())
        (fun failure => .error (.log failure)) (momentsOf redeliveredRun.past 3) ∧
      (momentsOf redeliveredRun.past 3).length = 4 ∧
      LooksUp cohort 4 (.handleDecision proposal.transaction .abort) proposal.transaction
        (.error (.invalidState (.notApplicable proposal.transaction .committed cohort .abort)))
        (fun failure => .error (.log failure)) (momentsOf redeliveredRun.past 4) ∧
      redeliveredRun.log = resolvedRun.log) ∧
    Reachable cohort unawareRun ∧
      JustEnded unawareRun 0 (.handleDecision proposal.transaction .commit) (.ok ()) ∧
      Leads cohort unawareRun correctedRun ∧
      Log.history unawareRun.log cohort proposal.transaction = [] ∧
      AbortedUnasked cohort correctedRun.log proposal.transaction := by
  have acknowledged : JustEnded resolvedRun 1 (.handleDecision proposal.transaction .commit)
      (.ok ()) := ⟨resolvedRun.log, by rfl⟩
  have acknowledged' : JustEnded unawareRun 0 (.handleDecision proposal.transaction .commit)
      (.ok ()) := ⟨unawareRun.log, by rfl⟩
  obtain ⟨known, -⟩ := decisions_are_idempotent reachable_resolvedRun acknowledged
  obtain ⟨-, -, commits, refuses⟩ := known (.inl (List.cons_ne_nil _ _)) _ leads_redeliveredRun
  obtain ⟨-, unknown⟩ := decisions_are_idempotent reachable_unawareRun acknowledged'
  obtain ⟨-, unknown⟩ := unknown rfl
  -- nothing has started yet
  obtain ⟨-, -, -, aborts⟩ := unknown unawareRun .refl fun _ _ ⟨_, old, later⟩ => absurd old later
  have recorded : AbortedUnasked cohort correctedRun.log proposal.transaction := by
    refine (aborts correctedRun leads_correctedRun ?_ 1 (.ok ()) correctedRun.log ?_ ?_).2 rfl
    · rintro call message ⟨log, started, -⟩
      exact absurd started (unasked_correctedRun call message log)
    · exact startsSince_of_head (rested_unawareRun.new le_rfl) rfl
    · exact List.mem_of_getLast? (by rfl)
  exact ⟨⟨reachable_resolvedRun, acknowledged, leads_redeliveredRun,
    commits.trace 3 (startsSince_of_head (rested_resolvedRun.new (by decide)) rfl), rfl,
    refuses .abort (by decide) |>.trace 4
      (startsSince_of_head (rested_resolvedRun.new (by decide)) rfl),
    rfl⟩, reachable_unawareRun, acknowledged', leads_correctedRun, rfl, recorded⟩

end Repeats

end AtomicCommit.Participant

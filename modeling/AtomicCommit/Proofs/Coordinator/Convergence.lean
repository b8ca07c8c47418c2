import AtomicCommit.Proofs.Coordinator.Run
import AtomicCommit.Proofs.Process.Progress

/-!
# A recovery that is answered well

A coordinator that recovers, and for which nothing fails, finishes every transaction: it decides
those that it had not, delivers the decision, hears every acknowledgement in the first round, and
logs the end. Whether participants vote, and how, makes no difference.

## Main definitions

* `Coordinator.Good`: the answers with which nothing fails.
* `Coordinator.recovery`: what a recovery that is answered so comes to.
* `Coordinator.Idle`: nothing is unfinished, and no call is under way that could change that.

## Main results

* `Coordinator.recover_succeeds`: a recovery reports success, and nothing is left unfinished.
* `Coordinator.prospers_step`, `Coordinator.recovered_of_returned`: this is so in a run, whatever
  else happens in it.
* `Coordinator.Idle.step`: a coordinator stays idle until a transaction begins.
-/

namespace AtomicCommit

namespace Coordinator

variable (self : Coordinator)

/-- Nothing fails: entries are stored, the log is read, the times up to which replies are awaited
can be represented, and whoever is told a decision says what came of it. -/
def Good (reports : DecisionMessage → ProcessId → Except TransportError Unit → Prop) :
    (q : self.role.Request) → self.role.Answer q → Prop
  | .inl .now, time => (time.add? self.config.prepareTimeout).isSome = true
  | .inl (.append _), stored => stored = .ok ()
  | .inl (.load _), found => ∃ entries, found = .ok entries
  | .inl (.scan _), found => ∃ entries, found = .ok entries
  | .inr (.awaitAcknowledgement message _), reply =>
    ∃ r, reply = some r ∧ reports message r.sender r.result
  | .inr (.requestVotes _ _ time), start | .inr (.sendDecision _ _ time), start =>
    (Timestamp.add? start time).isSome = true
  | .inr _, _ => True

/-- Nothing is left unfinished. -/
def Finished (log : List Entry) : Prop :=
  ∀ tx, Log.isIncomplete log self.id tx = false

/-- A recovery ends well; it reports nothing if nothing was unfinished when it started. -/
def Recovered (past : List (Moment self.role)) (call : ℕ) (log : List Entry) :
    (op : Operation) → op.Result → Prop
  | .recover, result => self.Finished log ∧ ∃ report, result = .ok report ∧
      ∀ log', (momentsOf past call).head? = some ⟨call, .started .recover, log'⟩ →
        self.Finished log' → report = {}
  | _, _ => True

/-- What a recovery aims at, if every decision is carried out: everything is finished. Somebody is
awaited only if told the decision before. -/
def recovery : Aim self.role where
  Good := self.Good fun _ _ result => result = .ok ()
  Fits past m :=
    match m.event with
    | .asked (.inr .freshId) | .asked (.inr .panic) => False
    | .asked (.inr (.awaitAcknowledgement message awaited)) =>
      awaited ≠ [] ∧ ∀ p ∈ awaited, self.Sends past p message
    | .returned op result => self.Recovered past m.call m.log op result
    | _ => True

variable {self} {call : ℕ} {op : Operation} {s s' : Scene self.role} {memory memory' : Memory}
  {t : Transaction} {tx : TransactionId}

/-- The contract of a recovery that is answered well. -/
abbrev kindly (c : Coordinator) (call : ℕ) (op : Operation) :
    Contract (interface.sharing Memory) (Scene c.role) :=
  c.discipline.favoured c.recovery call op

theorem Good.mono
    {reports reports' : DecisionMessage → ProcessId → Except TransportError Unit → Prop}
    {q : self.role.Request} {a : self.role.Answer q} (h : self.Good reports q a)
    (weaken : ∀ message p result, reports message p result → reports' message p result) :
    self.Good reports' q a := by
  unfold Good at h ⊢
  split at h
  all_goals try exact h
  obtain ⟨r, reply, said⟩ := h
  exact ⟨r, reply, weaken _ _ _ said⟩

instance (reports : DecisionMessage → ProcessId → Except TransportError Unit → Prop)
    [∀ message p result, Decidable (reports message p result)] (q : self.role.Request)
    (a : self.role.Answer q) : Decidable (self.Good reports q a) :=
  match q, a with
  | .inl .now, _ => inferInstanceAs (Decidable (_ = true))
  | .inl (.append _), .ok () => isTrue rfl
  | .inl (.load _), .ok entries | .inl (.scan _), .ok entries => isTrue ⟨entries, rfl⟩
  | .inr (.awaitAcknowledgement message _), some r =>
    decidable_of_iff (reports message r.sender r.result)
      ⟨fun h => ⟨r, rfl, h⟩, by rintro ⟨_, ⟨⟩, h⟩; exact h⟩
  | .inl (.append _), .error _ | .inl (.load _), .error _ | .inl (.scan _), .error _
  | .inr (.awaitAcknowledgement _ _), none => isFalse nofun
  | .inr (.requestVotes _ _ _), _ | .inr (.sendDecision _ _ _), _ =>
    inferInstanceAs (Decidable (_ = true))
  | .inr .freshId, _ | .inr (.awaitVote _ _), _ | .inr (.pause _), _ => isTrue trivial

/-! ## Questions and steps -/

theorem Works.kindly_ask {q : self.role.Request} {ε : Type}
    {ok : self.role.Answer q → Memory → Scene self.role → Prop}
    {err : ε → Memory → Scene self.role → Prop} (h : self.Works call op s memory t)
    (unfinished : t.state ≠ .done) (stores : self.role.stores q = false)
    (fits : self.recovery.Fits s.past ⟨call, .asked q, s.log⟩)
    (next : ∀ a memory' s', self.Works call op s' memory' t → self.Leads call op t.id s s' →
      ⟨call, .asked q, s.log⟩ ∈ s'.past → self.recovery.Good q a → ok a memory' s') :
    (Action.ask q : Action interface Memory ε _).Meets (self.kindly call op) ok err memory s := by
  rw [Action.meets_ask]
  refine ⟨fits, ?_⟩
  rintro a memory' s' ⟨answers, good⟩
  have regains := (h.calm unfinished).regains answers stores
  refine next a memory' s' (h.regains regains) regains.leads ?_ good
  have asked : ⟨call, .asked q, s.log⟩ ∈ momentsOf s'.past call := by
    rw [regains.own]
    simp
  exact mem_of_mem_momentsOf asked

/-- A step that is new is taken. -/
theorem Works.kindly_transition {next : CoordinatorState} {payload : Payload}
    {ok : Transaction → Memory → Scene self.role → Prop}
    {err : CommitError → Memory → Scene self.role → Prop} (h : self.Works call op s memory t)
    (unfinished : t.state ≠ .done) (advances : t.Advances next payload)
    (advanced : ∀ memory' s', self.Works call op s' memory' (t.record next payload) →
      self.Leads call op t.id s s' → ok (t.record next payload) memory' s') :
    (self.transition t next payload).Meets (self.kindly call op) ok err memory s := by
  have calm := h.calm unfinished
  refine meets_transition_of trivial ?_ ?_ ?_
  · exact fun _ _ _ _ _ refused => absurd advances refused
  · exact fun _ _ _ _ refused => absurd advances refused
  · rintro time memory₁ s₁ e ⟨answers, -⟩ - takes
    have regains := calm.regains answers rfl
    have works := h.regains regains
    rw [Host.meets_append]
    refine ⟨trivial, ?_⟩
    rintro _ memory₂ s₂ ⟨answers₂, rfl⟩
    refine ⟨?_, by simp⟩
    rintro _ -
    have stores := regains.calm.stores discipline_lawful takes.actor
      (claims_asked (takes.transaction ▸ works.claimed)) answers₂
    refine advanced _ s₂ ?_ (regains.leads.trans (takes.transaction ▸ Stores.leads stores))
    have replay := Transaction.replay_append_of_apply works.logged takes.apply
    have works₂ := Works.of_stores (t := t.record next payload) stores regains.unfailed
      (by simp [takes.transaction]) (by simpa using works.claimed) (by simpa using works.drawn)
      (by simpa using replay)
    simpa using works₂

/-! ## The first phase -/

variable {ok : Transaction → Memory → Scene self.role → Prop}
  {err : CommitError → Memory → Scene self.role → Prop}

theorem Works.kindly_collectVotes {outstanding : ℕ} {awaited : List ProcessId}
    (h : self.Works call op s memory t) (preparing : t.state = .preparing)
    (awaits : AwaitsVotes t awaited)
    (collected : ∀ t' memory' s', t'.state = .preparing →
      self.Reaches call op s t.id t' memory' s' → ok t' memory' s') :
    (self.collectVotes outstanding awaited t).Meets (self.kindly call op) ok err memory s := by
  refine meets_collectVotes_of
    (I := fun awaited t' memory' s' => AwaitsVotes t' awaited ∧ t'.state = .preparing ∧
      self.Reaches call op s t.id t' memory' s') ?_ ?_ ⟨awaits, preparing, h.reaches⟩
  · rintro - t' memory' s' ⟨-, preparing, reaches⟩
    exact collected t' memory' s' preparing reaches
  · rintro awaited t₁ memory₁ s₁ ⟨awaits, preparing, reaches⟩
    have unfinished : t₁.state ≠ .done := by simp [preparing]
    refine reaches.toWorks.kindly_ask unfinished rfl trivial ?_
    intro reply? memory₂ s₂ works leads _ _
    have reaches := reaches.next works leads rfl
    refine ⟨⟨awaits, preparing, reaches⟩, fun reply vote _ _ => ?_⟩
    have advances : t₁.Advances .preparing (.vote reply.sender vote) :=
      .vote vote preparing (awaits.member _ reply.sender_mem) (awaits.pending _ reply.sender_mem)
    refine works.kindly_transition unfinished advances ?_
    intro memory' s' works leads
    exact ⟨awaits.record, Transaction.state_record advances, reaches.next works leads rfl⟩

theorem Works.kindly_prepare {deadline : Timestamp} {resuming : Bool}
    (h : self.Works call op s memory t) (preparing : t.state = .preparing)
    (prepared : ∀ t' memory' s', t'.state = .preparing →
      self.Reaches call op s t.id t' memory' s' → ok t' memory' s') :
    (self.prepare t deadline resuming).Meets (self.kindly call op) ok err memory s := by
  have unfinished : t.state ≠ .done := by simp [preparing]
  refine meets_prepare_of (fun _ => prepared t memory s preparing h.reaches) fun _ => ?_
  refine h.kindly_ask unfinished rfl trivial ?_
  intro now memory₁ s₁ works₁ leads₁ _ _
  refine works₁.kindly_ask unfinished rfl trivial ?_
  intro start memory₂ s₂ works₂ leads₂ _ fits
  refine meets_within.2 ⟨fun _ => ?_, fun late => absurd fits (by simp [recovery, Good, late])⟩
  refine works₂.kindly_collectVotes preparing (awaitsVotes_pending t) ?_
  intro t' memory' s' preparing reaches
  have before := (h.reaches.next works₁ leads₁ rfl).next works₂ leads₂ rfl
  exact prepared t' memory' s' preparing (before.trans reaches)

/-- Whatever has been voted there is a decision. -/
theorem Works.kindly_decide {ok : Decision × Transaction → Memory → Scene self.role → Prop}
    (h : self.Works call op s memory t) (preparing : t.state = .preparing)
    (decided : ∀ d t' memory' s', t'.decision = some d → t'.state ≠ .done →
      self.Reaches call op s t.id t' memory' s' → ok (d, t') memory' s') :
    (self.decide t).Meets (self.kindly call op) ok err memory s := by
  have advances := h.wellFormed.advances_decision preparing
  rw [decide, Action.meets_bind]
  refine h.kindly_transition (by simp [preparing]) advances ?_
  intro memory' s' works leads
  refine decided _ _ memory' s' rfl ?_ (h.reaches.next works leads rfl)
  rw [Transaction.state_record advances]
  exact CoordinatorState.deciding_ne_done _

/-! ## The second phase -/

/-- Who is awaited has not acknowledged; everyone else has. -/
structure AwaitsAll (t : Transaction) (awaited : List ProcessId) : Prop
    extends AwaitsAcknowledgements t awaited where
  /-- They are all. -/
  all : ∀ p, t.participants.contains p = true → t.acknowledged.contains p = false → p ∈ awaited

theorem awaitsAll_unacknowledged (t : Transaction) : AwaitsAll t t.unacknowledged where
  toAwaitsAcknowledgements := awaitsAcknowledgements_unacknowledged t
  all p member new := by simp [Transaction.unacknowledged, SortedSet.mem_toList_iff, member, new]

theorem AwaitsAll.record {awaited : List ProcessId} {p : ProcessId} {next : CoordinatorState}
    (h : AwaitsAll t awaited) :
    AwaitsAll (t.record next (.acknowledged p)) (awaited.erase p) where
  toAwaitsAcknowledgements := h.toAwaitsAcknowledgements.record
  all q member new := by
    rw [Transaction.record, SortedSet.contains_insert, Bool.or_eq_false_iff] at new
    exact (h.nodup.mem_erase_iff).2 ⟨by simpa using new.1, h.all q member new.2⟩

theorem unacknowledged_of_nil (h : AwaitsAll t []) : t.unacknowledged = [] := by
  refine List.filter_eq_nil_iff.2 fun p hp => ?_
  have member := SortedSet.mem_toList_iff.1 hp
  by_contra new
  exact List.not_mem_nil (h.all p member (by simpa using new))

/-- Everybody who is awaited acknowledges. -/
theorem Works.kindly_collectAcknowledgements {message : DecisionMessage} {outstanding : ℕ}
    {awaited : List ProcessId} (h : self.Works call op s memory t) (unfinished : t.state ≠ .done)
    (decided : t.decision ≠ none) (count : awaited.length = outstanding)
    (awaits : AwaitsAll t awaited)
    (sent : ∀ p ∈ awaited, self.Sends s.past p message)
    (collected : ∀ t' memory' s', t'.decision = t.decision → t'.state ≠ .done →
      t'.unacknowledged = [] → self.Reaches call op s t.id t' memory' s' → ok t' memory' s') :
    (self.collectAcknowledgements message outstanding awaited t).Meets (self.kindly call op) ok err
      memory s := by
  refine meets_collectAcknowledgements_of
    (I := fun awaited t' memory' s' => AwaitsAll t' awaited ∧
      (∀ p ∈ awaited, self.Sends s'.past p message) ∧ t'.decision = t.decision ∧
      t'.state ≠ .done ∧ self.Reaches call op s t.id t' memory' s') count ?_ ?_
    ⟨awaits, sent, rfl, unfinished, h.reaches⟩
  · rintro t' memory' s' ⟨awaits, -, decision, unfinished, reaches⟩
    exact collected t' memory' s' decision unfinished (unacknowledged_of_nil awaits) reaches
  · rintro awaited t₁ memory₁ s₁ some_awaited ⟨awaits, sent, decision, unfinished, reaches⟩
    refine reaches.toWorks.kindly_ask unfinished rfl ⟨some_awaited, sent⟩ ?_
    rintro _ memory₂ s₂ works leads - ⟨reply, rfl, acknowledges⟩
    refine ⟨by simp, ?_⟩
    rintro _ ⟨⟩
    refine ⟨fun failure failed => ?_, fun _ => ?_⟩
    · rw [acknowledges] at failed
      cases failed
    obtain ⟨member, new⟩ := awaits.pending _ reply.sender_mem
    have advances : t₁.Advances t₁.state (.acknowledged reply.sender) :=
      .acknowledged (decision ▸ decided) unfinished member new
    refine works.kindly_transition unfinished advances ?_
    intro memory₃ s₃ works' leads'
    have grown := leads.past.trans leads'.past
    refine ⟨awaits.record, ?_, decision, ?_, (reaches.next works leads rfl).next works' leads' rfl⟩
    · exact fun p hp => (sent p (List.mem_of_mem_erase hp)).mono grown
    · rwa [Transaction.state_record advances]

/-- One round is enough. -/
theorem Works.kindly_deliverRounds {message : DecisionMessage} {rounds round : ℕ}
    (h : self.Works call op s memory t) (unfinished : t.state ≠ .done)
    (decided : t.decision ≠ none) (enough : rounds ≠ 0)
    (delivered : ∀ t' memory' s', t'.decision = t.decision → t'.state ≠ .done →
      t'.unacknowledged = [] → self.Reaches call op s t.id t' memory' s' → ok t' memory' s') :
    (self.deliverRounds message rounds round t).Meets (self.kindly call op) ok err memory s := by
  refine meets_deliverRounds_of
    (I := fun rounds t' memory' s' => (rounds ≠ 0 ∨ t'.unacknowledged = []) ∧
      t'.decision = t.decision ∧ t'.state ≠ .done ∧
      self.Reaches call op s t.id t' memory' s') ?_ ?_ ?_ ?_
    ⟨.inl enough, rfl, unfinished, h.reaches⟩
  · rintro t' memory' s' ⟨enough, decision, unfinished, reaches⟩
    exact delivered t' memory' s' decision unfinished (enough.resolve_left (by simp)) reaches
  · rintro - t' memory' s' ⟨-, decision, unfinished, reaches⟩ all
    exact delivered t' memory' s' decision unfinished all reaches
  · rintro rounds t₁ time memory₁ s₁ ⟨-, decision, unfinished, reaches⟩
    exact reaches.toWorks.kindly_ask unfinished rfl trivial fun _ memory₂ s₂ works leads _ _ =>
      ⟨.inl rounds.succ_ne_zero, decision, unfinished, reaches.next works leads rfl⟩
  · rintro - t₁ memory₁ s₁ ⟨-, decision, unfinished, reaches⟩ -
    refine reaches.toWorks.kindly_ask unfinished rfl trivial ?_
    intro start memory₂ s₂ works leads asked fits
    refine meets_within.2 ⟨fun _ => ?_, fun late => absurd fits (by simp [recovery, Good, late])⟩
    refine works.kindly_collectAcknowledgements unfinished (decision ▸ decided) rfl
      (awaitsAll_unacknowledged t₁) (fun p hp => ⟨_, _, _, _, asked, hp⟩) ?_
    intro t' memory' s' decision' unfinished all reaches'
    exact ⟨.inr all, decision'.trans decision, unfinished,
      (reaches.next works leads rfl).trans reaches'⟩

theorem Works.kindly_deliver {decision : Decision} {ok : Bool → Memory → Scene self.role → Prop}
    (h : self.Works call op s memory t) (unfinished : t.state ≠ .done)
    (decided : t.decision ≠ none) (attempts : self.config.retry.maxAttempts ≠ 0)
    (delivered : ∀ t' memory' s', t'.state = .done →
      self.Reaches call op s t.id t' memory' s' → ok true memory' s') :
    (self.deliver t decision).Meets (self.kindly call op) ok err memory s := by
  refine meets_deliver_of (h.kindly_deliverRounds unfinished decided attempts ?_)
  intro t' memory₁ s₁ decision unfinished all reaches
  refine ⟨absurd all, fun _ => ⟨fun done => absurd done unfinished, fun _ => ?_⟩⟩
  have advances := advances_done reaches.wellFormed unfinished (decision ▸ decided) all
  refine reaches.toWorks.kindly_transition unfinished advances ?_
  intro memory' s' works leads
  exact delivered (t'.record .done .none) memory' s' (Transaction.state_record advances)
    (reaches.next works leads rfl)

/-! ## Recovery -/

/-- A transaction has been ended: its history is complete, and it has been dropped from memory. -/
structure Ended (c : Coordinator) (call : ℕ) (op : Operation) (tx : TransactionId)
    (s s' : Scene c.role) (memory' : Memory) : Prop extends c.Leads call op tx s s' where
  /-- All transactions are in order. -/
  calm : c.Calm call op s' memory'
  /-- Its history is complete. -/
  complete : Log.isIncomplete s'.log c.id tx = false

theorem Works.kindly_drive {deadline : Timestamp} {resuming : Bool}
    {ok : CommitOutcome → Memory → Scene self.role → Prop}
    (h : self.Works call op s memory t) (unfinished : t.state ≠ .done)
    (started : t.state ≠ .init) (attempts : self.config.retry.maxAttempts ≠ 0)
    (driven : ∀ outcome memory' s', self.Ended call op t.id s s' memory' → ok outcome memory' s') :
    (self.drive t deadline resuming).Meets (self.kindly call op) ok err memory s := by
  refine meets_drive_of
    (I := fun d t' memory' s' => t'.decision = some d ∧ t'.state ≠ .done ∧
      self.Reaches call op s t.id t' memory' s') ?_ ?_ ?_
  · exact fun d decided => ⟨decided, unfinished, h.reaches⟩
  · intro undecided
    have preparing : t.state = .preparing :=
      (h.wellFormed.undecided.1 undecided).resolve_left started
    refine h.kindly_prepare preparing ?_
    intro t₁ memory₁ s₁ preparing reaches
    refine reaches.toWorks.kindly_decide preparing ?_
    exact fun d t₂ memory₂ s₂ decided unfinished reaches' =>
      ⟨decided, unfinished, reaches.trans reaches'⟩
  · rintro d t₁ memory₁ s₁ ⟨decided, unfinished, reaches⟩
    refine reaches.toWorks.kindly_deliver unfinished (by simp [decided]) attempts ?_
    intro t₂ memory₂ s₂ done reaches'
    have whole := reaches.trans reaches'
    rw [if_pos rfl, ← reaches'.about]
    refine driven _ _ s₂ { whole.toLeads with calm := reaches'.erase, complete := ?_ }
    rw [← whole.about, ← Bool.not_eq_true, Log.isIncomplete_iff_of_replay reaches'.logged]
    exact not_not.2 done

theorem Ended.of_leads {s'' : Scene self.role} (h : self.Ended call op tx s' s'' memory)
    (leads : self.Leads call op tx s s') : self.Ended call op tx s s'' memory :=
  { leads.trans h.toLeads with calm := h.calm, complete := h.complete }

theorem Works.kindly_resume {ok : CommitOutcome → Memory → Scene self.role → Prop}
    (h : self.Works call op s memory t) (unfinished : t.state ≠ .done)
    (attempts : self.config.retry.maxAttempts ≠ 0)
    (resumed : ∀ outcome memory' s', self.Ended call op t.id s s' memory' →
      ok outcome memory' s') :
    (self.resume t).Meets (self.kindly call op) ok err memory s := by
  refine meets_resume_of
    (I := fun t' memory' s' => t'.state ≠ .done ∧ t'.state ≠ .init ∧
      self.Reaches call op s t.id t' memory' s') ?_ ?_ ?_
  · exact fun started => ⟨unfinished, started, h.reaches⟩
  · intro init
    refine h.kindly_transition unfinished (.start init) ?_
    intro memory' s' works leads
    have preparing := Transaction.state_record (.start init)
    exact ⟨by simp [preparing], by simp [preparing], h.reaches.next works leads rfl⟩
  · rintro t₁ memory₁ s₁ ⟨unfinished, started, reaches⟩
    rw [meets_deadlineAfter]
    refine reaches.toWorks.kindly_ask unfinished rfl trivial ?_
    intro now memory₂ s₂ works leads _ inTime
    have inTime : (now.add? self.config.prepareTimeout).isSome = true := inTime
    refine ⟨fun deadline _ => ?_, fun unrepresentable => by simp [unrepresentable] at inTime⟩
    refine works.kindly_drive unfinished started attempts ?_
    intro outcome memory' s' ended
    exact resumed outcome memory' s'
      (.of_leads (reaches.about ▸ ended) (reaches.next works leads rfl).toLeads)

theorem kindly_finish {report : RecoveryReport}
    {ok : RecoveryReport → Memory → Scene self.role → Prop}
    {err : RecoveryError → Memory → Scene self.role → Prop} (h : self.Calm call op s memory)
    (claimed : t.id ∈ self.claims s.past call op) (logged : self.Logged s.log t)
    (unfinished : t.state ≠ .done) (attempts : self.config.retry.maxAttempts ≠ 0)
    (finished : ∀ report memory' s', self.Ended call op t.id s s' memory' →
      ok report memory' s') :
    (self.finish report t).Meets (self.kindly call op) ok err memory s := by
  rw [finish, Action.meets_bind]
  refine meets_restore h claimed logged ?_
  intro memory' works
  rw [Action.meets_bind, Action.meets_mapError]
  exact works.kindly_resume unfinished attempts fun outcome => finished _

/-- Once all that was unfinished is finished, nothing is left. -/
theorem kindly_finishAll {transactions : List Transaction} {report : RecoveryReport}
    {ok : RecoveryReport → Memory → Scene self.role → Prop}
    {err : RecoveryError → Memory → Scene self.role → Prop}
    (h : self.Calm call .recover s memory) (pending : self.Pending s.log transactions)
    (all : ∀ tx, Log.isIncomplete s.log self.id tx = true → ∃ t ∈ transactions, t.id = tx)
    (attempts : self.config.retry.maxAttempts ≠ 0)
    (finished : ∀ report' memory' s', s.past <+: s'.past → self.Finished s'.log →
      (transactions = [] → report' = report) → self.Calm call .recover s' memory' →
      ok report' memory' s') :
    (transactions.foldlM self.finish report).Meets (self.kindly call .recover) ok err memory s := by
  induction transactions generalizing report memory s with
  | nil =>
    refine finished report memory s List.prefix_rfl (fun tx => ?_) (fun _ => rfl) h
    rw [← Bool.not_eq_true]
    intro incomplete
    obtain ⟨t, member, -⟩ := all tx incomplete
    cases member
  | cons t rest ih =>
    obtain ⟨distinct, logged, unfinished⟩ := pending
    obtain ⟨different, distinct⟩ := List.pairwise_cons.1 distinct
    rw [List.foldlM_cons, Action.meets_bind]
    refine kindly_finish h trivial (logged t (.head _)) (unfinished t (.head _)) attempts ?_
    intro report' memory' s' ended
    have others : ∀ tx, tx ≠ t.id →
        Log.history s'.log self.id tx = Log.history s.log self.id tx :=
      fun tx ne => ended.history tx trivial ne
    refine ih ended.calm ⟨distinct, ?_, fun t' ht' => unfinished t' (.tail _ ht')⟩ ?_ ?_
    · intro t' ht'
      rw [Logged, others t'.id (different t' ht').symm]
      exact logged t' (.tail _ ht')
    · intro tx incomplete
      have ne : tx ≠ t.id := by
        rintro rfl
        rw [ended.complete] at incomplete
        cases incomplete
      rw [Log.isIncomplete_congr (others tx ne)] at incomplete
      obtain ⟨t', member, rfl⟩ := all tx incomplete
      rcases List.mem_cons.1 member with rfl | member
      · exact absurd rfl ne
      · exact ⟨t', member, rfl⟩
    · exact fun report'' memory'' s'' past all _ calm =>
        finished report'' memory'' s'' (ended.past.trans past) all (by simp) calm

theorem kindly_recover {ok : RecoveryReport → Memory → Scene self.role → Prop}
    {err : RecoveryError → Memory → Scene self.role → Prop} (h : self.Calm call .recover s memory)
    (attempts : self.config.retry.maxAttempts ≠ 0)
    (recovered : ∀ report memory' s', s.past <+: s'.past → self.Finished s'.log →
      (self.Finished s.log → report = {}) → self.Calm call .recover s' memory' →
      ok report memory' s') :
    self.recover.Meets (self.kindly call .recover) ok err memory s := by
  rw [recover, Action.meets_bind, Action.meets_mapError, Host.meets_scan]
  refine ⟨trivial, ?_⟩
  rintro _ memory' s' ⟨answers, entries, rfl⟩
  have regains := h.regains answers rfl
  refine ⟨?_, by simp⟩
  rintro _ ⟨⟩
  obtain rfl : entries = Log.scanIncomplete s'.log self.id := regains.host.2 entries rfl
  obtain ⟨transactions, replayed⟩ := regains.calm.exists_replayAll
  rw [Action.meets_bind, Action.meets_ofExcept, replayed]
  refine ⟨?_, by simp⟩
  rintro _ ⟨⟩
  have ids := ids_of_scan replayed
  refine kindly_finishAll regains.calm (pending_of_scan replayed) ?_ attempts ?_
  · intro tx incomplete
    have listed := Log.mem_transactions_scan_iff.2 incomplete
    rw [ids] at listed
    exact List.mem_map.1 listed
  · intro report memory'' s'' past all none calm
    refine recovered report memory'' s'' (regains.past.trans past) all (fun before => ?_) calm
    refine none (List.map_eq_nil_iff.1 (ids.symm.trans ?_))
    refine List.eq_nil_iff_forall_not_mem.2 fun tx listed => ?_
    have incomplete := Log.mem_transactions_scan_iff.1 listed
    rw [Log.isIncomplete_congr (regains.history tx (claims_asked trivial)), before tx] at incomplete
    cases incomplete

/-- A recovery that is answered well finishes everything. -/
theorem recover_succeeds (sound : self.discipline.Sound s) (new : ∀ m ∈ s.past, m.call ≠ call)
    (attempts : self.config.retry.maxAttempts ≠ 0) :
    (self.run .recover s.memory).Meets (self.kindly call .recover)
      (Discipline.Succeeds self.recovery call .recover) (s.note call (.started .recover)) := by
  refine Action.Meets.program (kindly_recover (calm_start sound new) attempts ?_)
  intro report memory' s' past all none _
  refine ⟨all, report, rfl, fun log' started before => none ?_⟩
  rw [Scene.head_of_note_started new past] at started
  cases started
  exact before

/-- Recoveries go on to come to what they aim at, as long as they are answered well. -/
theorem prospers_step {covers : ℕ → Operation → Prop} {n n' : Node self.role}
    {allows : Operation → Moment self.role → Prop} (attempts : self.config.retry.maxAttempts ≠ 0)
    (recoveries : ∀ call op, covers call op → op = .recover) (holds : self.discipline.Holds n)
    (h : self.discipline.Prospers self.recovery covers n) (step : n.Step allows n')
    (allowed : ∀ op m, allows op m → self.Allows n op m)
    (good : ∀ call t a log, n.threads call = some t → covers call t.operation →
      allows t.operation ⟨call, .answered t.question a, log⟩ → self.recovery.Good t.question a) :
    self.discipline.Prospers self.recovery covers n' := by
  refine h.step discipline_lawful obeyed holds step (tolerates allowed) ?_ good
  intro call op _ covered new
  obtain rfl := recoveries call op covered
  exact recover_succeeds holds.toSound new attempts

/-- What the end of a recovery that prospers says. -/
theorem recovered_of_returned {covers : ℕ → Operation → Prop} {n : Node self.role}
    (sound : self.discipline.Sound n.toScene)
    (h : self.discipline.Prospers self.recovery covers n) (covered : covers call .recover)
    {log log' : List Entry} (started : ⟨call, .started .recover, log⟩ ∈ n.past)
    {result : Except RecoveryError RecoveryReport}
    (returned : ⟨call, .returned .recover result, log'⟩ ∈ n.past) :
    self.Finished log' ∧ ∃ report, result = .ok report ∧ (self.Finished log → report = {}) := by
  obtain ⟨before, -, ⟨all, report, rfl, none⟩, first⟩ :=
    h.returned sound.chronicle covered started returned
  exact ⟨all, report, rfl, none log first⟩

/-- A recovery that prospers does not panic. -/
theorem restsAt_of_asked {covers : ℕ → Operation → Prop} {n : Node self.role}
    (h : self.discipline.Prospers self.recovery covers n) (covered : covers call .recover)
    {log log' : List Entry} (started : ⟨call, .started .recover, log⟩ ∈ n.past)
    {q : self.role.Request} (asked : ⟨call, .asked q, log'⟩ ∈ n.past) :
    self.role.restsAt q = true := by
  obtain ⟨before, -, fits⟩ := h.asks _ _ _ _ _ started covered asked
  rcases q with q | (_ | _ | _ | _ | _ | _ | _)
  case inr.panic => exact fits.elim
  all_goals rfl

/-! ## Until something begins -/

/-- Nothing is unfinished, and no call is under way that could change that. -/
structure Idle (c : Coordinator) (n : Node c.role) : Prop where
  /-- Nothing is unfinished. -/
  finished : c.Finished n.log
  /-- No call is under way that changes transactions. -/
  quiet : ∀ call t, n.threads call = some t → t.operation.drives = false

/-- When a recovery has ended with nothing unfinished the coordinator is idle. -/
theorem idle_of_settle {n : Node self.role} {m : Moment self.role} {s : Scene self.role}
    {outcome : Operation.recover.Result × Memory} (allowed : self.Allows n .recover m)
    (finished : self.Finished s.log) :
    self.Idle (Node.settle s n.threads m.call .recover (.done outcome)) where
  finished := finished
  quiet call t rests := by
    rcases Node.cases_of_rests_settle rests with ⟨ne, rests⟩ | ⟨-, q, next, ends, -⟩
    · have overlaps := allowed.turn call t rests ne
      cases op : t.operation <;> simp_all [Operation.overlaps, Operation.drives]
    · cases ends

/-- A coordinator stays idle until a transaction begins or a recovery starts. -/
theorem Idle.step {n n' : Node self.role} {allows : Operation → Moment self.role → Prop}
    (holds : self.discipline.Holds n) (h : self.Idle n) (step : n.Step allows n')
    (undriven : ∀ call op log, ⟨call, .started op, log⟩ ∈ n'.past → n.Unstarted call →
      op.drives = false) : self.Idle n' where
  finished tx := by
    suffices same : Log.history n'.log self.id tx = Log.history n.log self.id tx by
      rw [Log.isIncomplete_congr same]
      exact h.finished tx
    rcases step.log with same | ⟨e, other, same⟩ | ⟨call, t, e, rests, asks, -⟩
    · rw [same]
    · rw [same]
      exact Log.history_append_other _ fun own => absurd own other
    · -- who appends an entry may change its transaction
      have claimed := ((holds.waits call t rests).appends e asks).2
      have quiet := h.quiet call t rests
      cases op : t.operation <;> simp_all [Operation.drives, claims]
  quiet call t rests := by
    rcases step.cases_of_rests rests with ⟨t', rests', same⟩ | ⟨new, log, started⟩
    · exact same ▸ h.quiet call t' rests'
    · exact undriven call t.operation log started new

end Coordinator

end AtomicCommit

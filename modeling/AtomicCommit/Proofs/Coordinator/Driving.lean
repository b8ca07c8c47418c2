import AtomicCommit.Proofs.Coordinator.Rules
import AtomicCommit.Proofs.Coordinator.Work

/-!
# Driving a transaction under the discipline

Each part of a drive leaves the call at work on the transaction, with one more fact established:
votes are collected while it is preparing, a decision is logged, and the decision logged is the one
delivered. A part that fails has failed to store a vital entry and leaves all in order.

## Main definitions

* `Coordinator.Told`, `Coordinator.Resent`: how a decision has been sent, and what is sent of one
  that had been made before.
* `Coordinator.Concludes`: how a drive has ended that succeeds.

## Main results

* `Coordinator.meets_drive`: what comes of a drive.
-/

namespace AtomicCommit.Coordinator

variable {self : Coordinator} {call : ℕ} {op : Operation} {s : Scene self.role} {memory : Memory}
  {t : Transaction}

theorem Works.wellFormed (h : self.Works call op s memory t) : t.WellFormed :=
  Transaction.wellFormed_of_replay h.logged

/-! ## The first phase -/

theorem meets_collectVotes {ok : Transaction → Memory → Scene self.role → Prop}
    {err : CommitError → Memory → Scene self.role → Prop} {outstanding : ℕ}
    {awaited : List ProcessId} (h : self.Works call op s memory t)
    (preparing : t.state = .preparing) (awaits : AwaitsVotes t awaited)
    (collected : ∀ t' memory' s', t'.id = t.id → t'.state = .preparing →
      self.Works call op s' memory' t' → self.Leads call op t.id s s' → ok t' memory' s')
    (failed : ∀ failure memory' s', self.discipline.Leaves call op s' memory' →
      self.Misses call s failure s' → err failure memory' s') :
    (self.collectVotes outstanding awaited t).Meets (self.discipline.contract call op) ok err
      memory s := by
  refine meets_collectVotes_of
    (I := fun awaited t' memory' s' => AwaitsVotes t' awaited ∧ t'.state = .preparing ∧
      self.Reaches call op s t.id t' memory' s') ?_ ?_ ⟨awaits, preparing, h.reaches⟩
  · rintro - t' memory' s' ⟨-, preparing, reaches⟩
    exact collected t' memory' s' reaches.about preparing reaches.toWorks reaches.toLeads
  · rintro awaited t₁ memory₁ s₁ ⟨awaits, preparing, reaches⟩
    refine reaches.toWorks.meets_ask (by simp [preparing]) rfl trivial ?_
    intro reply? memory₂ s₂ works leads noted
    have reaches := reaches.next works leads rfl
    refine ⟨⟨awaits, preparing, reaches⟩, ?_⟩
    rintro reply vote rfl said
    have heard : self.HeardVote s₂.past call t₁.id reply.sender vote :=
      ⟨awaited, reply, s₂.log, rfl, said, noted⟩
    have advances : t₁.Advances .preparing (.vote reply.sender vote) :=
      .vote vote preparing (awaits.member _ reply.sender_mem) (awaits.pending _ reply.sender_mem)
    refine meets_transition works (by simp [preparing]) ?_ (by simp) ?_ ?_ ?_
    · rintro p v ⟨⟩
      exact heard
    · intro memory' s' advances works leads
      exact ⟨awaits.record, Transaction.state_record advances,
        reaches.next works leads (by simp)⟩
    · intro memory' s' repeats _ _
      exact absurd repeats advances.not_repeats
    · intro failure memory' s' leaves _ misses
      refine failed failure memory' s' leaves (Misses.of_grows ?_ reaches.toGrows)
      exact misses advances (by simp [Spare])

theorem meets_prepare {ok : Transaction → Memory → Scene self.role → Prop}
    {err : CommitError → Memory → Scene self.role → Prop} {deadline : Timestamp} {resuming : Bool}
    (h : self.Works call op s memory t) (preparing : t.state = .preparing)
    (prepared : ∀ t' memory' s', t'.id = t.id → t'.state = .preparing →
      self.Works call op s' memory' t' → self.Leads call op t.id s s' → ok t' memory' s')
    (failed : ∀ failure memory' s', self.discipline.Leaves call op s' memory' →
      self.Misses call s failure s' → err failure memory' s') :
    (self.prepare t deadline resuming).Meets (self.discipline.contract call op) ok err
      memory s := by
  have unfinished : t.state ≠ .done := by simp [preparing]
  refine meets_prepare_of (fun _ => prepared t memory s rfl preparing h (.refl s)) fun _ => ?_
  refine h.meets_ask unfinished rfl trivial ?_
  intro now memory₁ s₁ works₁ leads₁ _
  refine works₁.meets_ask unfinished rfl ?_ ?_
  · exact ⟨t, works₁.logged, (works₁.calm unfinished).entitled works₁.claimed, preparing, rfl⟩
  · intro start memory₂ s₂ works₂ leads₂ noted
    have leads₂ := leads₁.trans leads₂
    refine meets_within.2 ⟨fun _ => ?_, fun late =>
      (works₂.calm unfinished).asks rfl (.votes noted late)⟩
    refine meets_collectVotes works₂ preparing (awaitsVotes_pending t) ?_ ?_
    · intro t' memory' s' id preparing works leads
      exact prepared t' memory' s' id preparing works (leads₂.trans leads)
    · intro failure memory' s' leaves misses
      exact failed failure memory' s' leaves (misses.of_grows leads₂.toGrows)

theorem meets_decide {ok : Decision × Transaction → Memory → Scene self.role → Prop}
    {err : CommitError → Memory → Scene self.role → Prop} (h : self.Works call op s memory t)
    (preparing : t.state = .preparing)
    (decided : ∀ d t' memory' s', t'.id = t.id → t'.decision = some d →
      d = t'.tally.getD .abort → t'.state ≠ .done →
      self.Works call op s' memory' t' → self.Leads call op t.id s s' → ok (d, t') memory' s')
    (failed : ∀ failure memory' s', self.discipline.Leaves call op s' memory' →
      self.Misses call s failure s' → err failure memory' s') :
    (self.decide t).Meets (self.discipline.contract call op) ok err memory s := by
  have advances := h.wellFormed.advances_decision preparing
  rw [decide, Action.meets_bind]
  refine meets_transition h (by simp [preparing]) (by simp) (by simp) ?_ ?_ ?_
  · intro memory' s' _ works leads
    refine decided _ _ memory' s' (by simp) rfl rfl ?_ works leads
    rw [Transaction.state_record advances]
    exact CoordinatorState.deciding_ne_done _
  · intro memory' s' repeats _ _
    exact absurd repeats Transaction.not_repeats_decision
  · intro failure memory' s' leaves _ misses
    exact failed failure memory' s' leaves (misses advances (by simp [Spare]))

/-! ## The second phase -/

theorem meets_collectAcknowledgements {message : DecisionMessage}
    {ok : Transaction → Memory → Scene self.role → Prop}
    {err : CommitError → Memory → Scene self.role → Prop} {outstanding : ℕ}
    {awaited : List ProcessId} (h : self.Works call op s memory t) (unfinished : t.state ≠ .done)
    (about : message.transaction = t.id) (decided : t.decision = some message.decision)
    (count : awaited.length = outstanding)
    (collected : ∀ t' memory' s', t'.decision = t.decision → t'.tally = t.tally →
      t'.state ≠ .done → self.Reaches call op s t.id t' memory' s' → ok t' memory' s') :
    (self.collectAcknowledgements message outstanding awaited t).Meets
      (self.discipline.contract call op) ok err memory s := by
  refine meets_collectAcknowledgements_of
    (I := fun _ t' memory' s' => t'.decision = t.decision ∧ t'.tally = t.tally ∧
      t'.state ≠ .done ∧ self.Reaches call op s t.id t' memory' s') count ?_ ?_
    ⟨rfl, rfl, unfinished, h.reaches⟩
  · rintro t' memory' s' ⟨decision, tally, unfinished, reaches⟩
    exact collected t' memory' s' decision tally unfinished reaches
  · rintro awaited t₁ memory₁ s₁ - ⟨decision, tally, unfinished, reaches⟩
    have about := about.trans reaches.about.symm
    refine reaches.toWorks.meets_ask unfinished rfl
      ⟨t₁, reaches.logged, about, decision.trans decided⟩ ?_
    intro reply? memory₂ s₂ works leads noted
    have reaches := reaches.next works leads rfl
    refine ⟨fun _ => collected t₁ memory₂ s₂ decision tally unfinished reaches, ?_⟩
    rintro reply rfl
    refine ⟨fun _ _ => ⟨decision, tally, unfinished, reaches⟩, fun said => ?_⟩
    have heard : self.HeardAcknowledgement s₂.past call t₁.id reply.sender :=
      ⟨message, awaited, reply, s₂.log, about, rfl, said, noted⟩
    refine meets_transition works unfinished (by simp) ?_ ?_ ?_ ?_
    · rintro p ⟨⟩
      exact heard
    · intro memory' s' advances works leads
      refine ⟨decision, tally, ?_, reaches.next works leads (by simp)⟩
      rwa [Transaction.state_record advances]
    · intro memory' s' _ works leads
      exact ⟨decision, tally, unfinished, reaches.next works leads rfl⟩
    · intro failure memory' s' _ excused _
      obtain ⟨works, leads⟩ := excused (.inr ⟨_, rfl⟩)
      exact ⟨decision, tally, unfinished, reaches.next works leads rfl⟩

/-- A call has sent a decision to these participants. -/
def Told (c : Coordinator) (past : List (Moment c.role)) (call : ℕ) (message : DecisionMessage)
    (participants : List ProcessId) : Prop :=
  ∃ time start log,
    ⟨call, .answered (.inr (.sendDecision message participants time)) start, log⟩ ∈ past

theorem Told.mono {past later : List (Moment self.role)} {message : DecisionMessage}
    {participants : List ProcessId} (h : self.Told past call message participants)
    (sub : past <+: later) : self.Told later call message participants := by
  obtain ⟨time, start, log, told⟩ := h
  exact ⟨time, start, log, sub.subset told⟩

/-- What the first round of a delivery has come to, with so many rounds left of those that there
were: it is still to come, or the decision has been sent to all those who were missing then. -/
def FirstRound (c : Coordinator) (call : ℕ) (message : DecisionMessage) (rounds : ℕ)
    (t : Transaction) (left : ℕ) (t' : Transaction) (s' : Scene c.role) : Prop :=
  left = rounds ∧ t' = t ∨ left < rounds ∧ c.Told s'.past call message t.unacknowledged

/-- Once the rounds are over the first has been, if there was one and somebody was missing. -/
theorem FirstRound.told {message : DecisionMessage} {rounds left : ℕ} {t' : Transaction}
    {s' : Scene self.role} (h : self.FirstRound call message rounds t left t' s')
    (spent : left = 0 ∨ t'.unacknowledged = []) (some : rounds ≠ 0)
    (missing : t.unacknowledged ≠ []) : self.Told s'.past call message t.unacknowledged := by
  rcases h with ⟨rfl, rfl⟩ | ⟨-, told⟩
  · exact absurd spent (by simp [some, missing])
  · exact told

theorem meets_deliverRounds {message : DecisionMessage}
    {ok : Transaction → Memory → Scene self.role → Prop}
    {err : CommitError → Memory → Scene self.role → Prop} {rounds round : ℕ}
    (h : self.Works call op s memory t) (unfinished : t.state ≠ .done)
    (about : message.transaction = t.id) (decided : t.decision = some message.decision)
    (delivered : ∀ t' memory' s', t'.decision = t.decision → t'.tally = t.tally →
      t'.state ≠ .done → (rounds ≠ 0 → t.unacknowledged ≠ [] →
        self.Told s'.past call message t.unacknowledged) →
      self.Reaches call op s t.id t' memory' s' → ok t' memory' s') :
    (self.deliverRounds message rounds round t).Meets (self.discipline.contract call op) ok err
      memory s := by
  refine meets_deliverRounds_of
    (I := fun left t' memory' s' => t'.decision = t.decision ∧ t'.tally = t.tally ∧
      t'.state ≠ .done ∧ self.FirstRound call message rounds t left t' s' ∧
      self.Reaches call op s t.id t' memory' s') ?_ ?_ ?_ ?_
    ⟨rfl, rfl, unfinished, .inl ⟨rfl, rfl⟩, h.reaches⟩
  · rintro t' memory' s' ⟨decision, tally, unfinished, first, reaches⟩
    exact delivered t' memory' s' decision tally unfinished (first.told (.inl rfl)) reaches
  · rintro left t' memory' s' ⟨decision, tally, unfinished, first, reaches⟩ none
    exact delivered t' memory' s' decision tally unfinished (first.told (.inr none)) reaches
  · rintro left t₁ time memory₁ s₁ ⟨decision, tally, unfinished, first, reaches⟩
    refine reaches.toWorks.meets_ask unfinished rfl trivial fun _ memory₂ s₂ works leads _ =>
      ⟨decision, tally, unfinished, ?_, reaches.next works leads rfl⟩
    exact first.imp_right fun ⟨fewer, told⟩ => ⟨fewer, told.mono leads.past⟩
  · rintro left t₁ memory₁ s₁ ⟨decision, tally, unfinished, first, reaches⟩ -
    have about := about.trans reaches.about.symm
    have decided := decision.trans decided
    refine reaches.toWorks.meets_ask unfinished rfl ?_ ?_
    · exact ⟨t₁, reaches.logged, (reaches.calm unfinished).entitled reaches.claimed, about,
        decided, rfl⟩
    · intro start memory₂ s₂ works₂ leads₂ noted
      refine meets_within.2 ⟨fun _ => ?_, fun late =>
        (works₂.calm unfinished).asks rfl (.decision noted late)⟩
      have told : left < rounds ∧ self.Told s₂.past call message t.unacknowledged := by
        rcases first with ⟨rfl, rfl⟩ | ⟨fewer, told⟩
        · exact ⟨Nat.lt_succ_self left, _, _, _, noted⟩
        · exact ⟨Nat.lt_of_succ_lt fewer, told.mono leads₂.past⟩
      refine meets_collectAcknowledgements works₂ unfinished about decided rfl ?_
      intro t' memory' s' decision' tally' unfinished reaches'
      exact ⟨decision'.trans decision, tally'.trans tally, unfinished,
        .inr ⟨told.1, told.2.mono reaches'.past⟩, (reaches.next works₂ leads₂ rfl).trans reaches'⟩

theorem meets_deliver {decision : Decision} {ok : Bool → Memory → Scene self.role → Prop}
    {err : CommitError → Memory → Scene self.role → Prop} (h : self.Works call op s memory t)
    (unfinished : t.state ≠ .done) (decided : t.decision = some decision)
    (delivered : ∀ b t' memory' s', t'.decision = some decision → t'.tally = t.tally →
      (b = true ↔ t'.state = .done) →
      (self.config.retry.maxAttempts ≠ 0 → t.unacknowledged ≠ [] →
        self.Told s'.past call { transaction := t.id, decision } t.unacknowledged) →
      self.Reaches call op s t.id t' memory' s' → ok b memory' s') :
    (self.deliver t decision).Meets (self.discipline.contract call op) ok err memory s := by
  refine meets_deliver_of (meets_deliverRounds h unfinished rfl decided ?_)
  intro t' memory₁ s₁ decision tally unfinished told reaches
  have decided := decision.trans decided
  refine ⟨fun _ => ?_, fun _ => ⟨fun done => absurd done unfinished, fun _ => ?_⟩⟩
  · exact delivered false t' memory₁ s₁ decided tally (by simp [unfinished]) told reaches
  refine meets_transition reaches.toWorks unfinished (by simp) (by simp) ?_ ?_ ?_
  · intro memory' s' advances works leads
    exact delivered true (t'.record .done .none) memory' s' decided tally
      (by simp [Transaction.state_record advances])
      (fun attempts missing => (told attempts missing).mono leads.past)
      (reaches.next works leads (by simp))
  · intro memory' s' repeats _ _
    exact absurd repeats Transaction.not_repeats_none
  · intro failure memory' s' _ excused _
    obtain ⟨works, leads⟩ := excused (.inl ⟨rfl, rfl⟩)
    exact delivered false t' memory' s' decided tally (by simp [unfinished])
      (fun attempts missing => (told attempts missing).mono leads.past)
      (reaches.next works leads rfl)

/-- How a drive has ended that succeeds: the transaction as it is logged then, and what is told of
it. -/
structure Concludes (c : Coordinator) (log : List Entry) (tx : TransactionId) (t : Transaction)
    (d : Decision) (outcome : CommitOutcome) : Prop where
  /-- It is the transaction that has been driven. -/
  id : t.id = tx
  /-- It is logged. -/
  logged : c.Logged log t
  /-- It is decided. -/
  decided : t.decision = some d
  /-- That is told of it. -/
  transaction : outcome.transaction = t.id
  /-- The outcome is that of the decision. -/
  same : outcome.outcome = d.outcome
  /-- Everybody has acknowledged when it is done. -/
  acknowledged : outcome.fullyAcknowledged = true ↔ t.state = .done

/-- A call has sent the decision that a transaction had already to everybody who was missing. -/
def Resent (c : Coordinator) (past : List (Moment c.role)) (call : ℕ) (t : Transaction) : Prop :=
  ∀ d, t.decision = some d → c.config.retry.maxAttempts ≠ 0 → t.unacknowledged ≠ [] →
    c.Told past call { transaction := t.id, decision := d } t.unacknowledged

theorem Resent.mono {past later : List (Moment self.role)} (h : self.Resent past call t)
    (sub : past <+: later) : self.Resent later call t :=
  fun d decided attempts missing => (h d decided attempts missing).mono sub

/-- What comes of a drive. One that finds a decision does not fail. -/
theorem meets_drive {deadline : Timestamp} {resuming : Bool}
    {ok : CommitOutcome → Memory → Scene self.role → Prop}
    {err : CommitError → Memory → Scene self.role → Prop} (h : self.Works call op s memory t)
    (unfinished : t.state ≠ .done) (started : t.state ≠ .init)
    (driven : ∀ outcome t' d memory' s', self.Concludes s'.log t.id t' d outcome →
      (t.decision = none → d = t'.tally.getD .abort) → self.Resent s'.past call t →
      self.Calm call op s' memory' → self.Leads call op t.id s s' → ok outcome memory' s')
    (failed : ∀ failure memory' s', t.decision = none →
      self.discipline.Leaves call op s' memory' → self.Misses call s failure s' →
      err failure memory' s') :
    (self.drive t deadline resuming).Meets (self.discipline.contract call op) ok err
      memory s := by
  refine meets_drive_of
    (I := fun d t' memory' s' => t'.decision = some d ∧
      (t.decision = none → d = t'.tally.getD .abort) ∧ (t.decision ≠ none → t' = t) ∧
      t'.state ≠ .done ∧ self.Reaches call op s t.id t' memory' s') ?_ ?_ ?_
  · exact fun d decided =>
      ⟨decided, fun none => by simp [none] at decided, fun _ => rfl, unfinished, h.reaches⟩
  · intro undecided
    have preparing : t.state = .preparing :=
      (h.wellFormed.undecided.1 undecided).resolve_left started
    refine meets_prepare h preparing ?_ fun failure memory' s' =>
      failed failure memory' s' undecided
    intro t₁ memory₁ s₁ id preparing works leads
    have reaches := h.reaches.next works leads id
    refine meets_decide works preparing ?_ ?_
    · intro d t₂ memory₂ s₂ id decided heeds unfinished works leads
      exact ⟨decided, fun _ => heeds, absurd undecided, unfinished, reaches.next works leads id⟩
    · intro failure memory' s' leaves misses
      exact failed failure memory' s' undecided leaves (misses.of_grows leads.toGrows)
  · -- the transaction is dropped if it is done
    rintro d t₁ memory₁ s₁ ⟨decided, heeds, kept, unfinished, reaches⟩
    refine meets_deliver reaches.toWorks unfinished decided ?_
    intro b t₂ memory₂ s₂ decided₂ tally finished told reaches₂
    have reaches' := reaches.trans reaches₂
    have concludes : self.Concludes s₂.log t.id t₂ d
        { transaction := t₁.id, outcome := d.outcome, fullyAcknowledged := b } :=
      ⟨reaches'.about, reaches₂.logged, decided₂, reaches₂.about.symm, rfl, finished⟩
    have heeds : t.decision = none → d = t₂.tally.getD .abort := by
      rwa [tally]
    have resent : self.Resent s₂.past call t := by
      intro d' decision
      obtain rfl := kept (by simp [decision])
      obtain rfl := Option.some.inj (decided.symm.trans decision)
      exact told
    cases b with
    | true =>
      refine driven _ t₂ d _ s₂ concludes heeds resent ?_ reaches'.toLeads
      rw [if_pos rfl, ← reaches₂.about]
      exact reaches₂.toWorks.erase
    | false =>
      have unfinished : t₂.state ≠ .done := fun done => Bool.false_ne_true (finished.2 done)
      exact driven _ t₂ d _ s₂ concludes heeds resent (reaches₂.calm unfinished) reaches'.toLeads

end AtomicCommit.Coordinator

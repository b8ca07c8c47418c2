import AtomicCommit.Proofs.Coordinator.Accumulation
import AtomicCommit.Proofs.Coordinator.Smooth

/-!
# The rounds of a delivery

A decision is delivered in rounds. In each it is sent to those of whom no acknowledgement is
entered, and their replies are awaited until all have come or one does not come in time. A round
follows the last as long as there is somebody left and a try. What participants reply, and which
entries can be stored, makes only this difference: who is told again.

## Main definitions

* `Coordinator.rounds`: how often a decision has been sent.
* `Coordinator.awaiting`: whose replies are still to be awaited.
* `Coordinator.Delivers`: what a delivery may ask, after what has been said.
* `Coordinator.Delivered`: what is so when a delivery has ended.
* `Coordinator.Delivering`, `Coordinator.Settled`: the invariant of a delivery.

## Main results

* `Coordinator.Settled.meets_collectAcknowledgements`, `Coordinator.Settled.meets_deliverRounds`:
  what one round keeps, and all rounds.
* `Coordinator.deliver_runs_rounds`: a delivery, whatever it is told.
-/

namespace AtomicCommit

/-- Who has acknowledged, if the data of an entry is an acknowledgement. -/
def Payload.acknowledged? : Payload → Option ProcessId
  | .acknowledged p => some p
  | _ => Option.none

namespace Coordinator

variable {self : Coordinator} {t t' : Transaction} {d : Decision} {history : List Entry}
  {said : List (Exchange self.role)} {memory : Memory} {p : ProcessId} {left : ℕ}

/-! ## What has been said -/

/-- An acknowledgement is entered. -/
def Confirmed (entries : List Entry) (p : ProcessId) : Prop :=
  .acknowledged p ∈ entries.map Entry.payload

/-- A decision is sent. -/
def sendsDecision : Exchange self.role → Bool
  | ⟨.inr (.sendDecision _ _ _), _⟩ => true
  | _ => false

/-- How often a decision has been sent. -/
def rounds (said : List (Exchange self.role)) : ℕ :=
  said.countP sendsDecision

/-- Whose replies are still to be awaited after an exchange: those of all to whom the decision has
just been sent, and of nobody who has replied, or once one has not come in time. -/
def awaitingAfter (awaited : List ProcessId) : Exchange self.role → List ProcessId
  | ⟨.inr (.sendDecision _ participants _), _⟩ => participants
  | ⟨.inr (.awaitAcknowledgement _ _), some reply⟩ => awaited.erase reply.sender
  | ⟨.inr (.awaitAcknowledgement _ _), none⟩ => []
  | _ => awaited

/-- Whose replies are still to be awaited. -/
def awaiting (said : List (Exchange self.role)) : List ProcessId :=
  said.foldl awaitingAfter []

/-- Who is heard to have carried out a decision. -/
def heard? : Exchange self.role → Option ProcessId
  | ⟨.inr (.awaitAcknowledgement _ _), some reply⟩ =>
    reply.result.toOption.map fun _ => reply.sender
  | _ => none

/-- Who has been heard to have carried out a decision, in order. -/
def heard (said : List (Exchange self.role)) : List ProcessId :=
  said.filterMap heard?

/-- Whose acknowledgement has been asked to be stored, in order. -/
def entered (said : List (Exchange self.role)) : List ProcessId :=
  said.filterMap fun
    | ⟨.inl (.append e), _⟩ => e.payload.acknowledged?
    | _ => none

/-- The end of a transaction could not be stored. -/
def FailsToEnd (said : List (Exchange self.role)) : Prop :=
  ∃ e failure, e.payload = .none ∧ e.state = .done ∧
    ⟨.inl (.append e), (.error failure : Except LogError Unit)⟩ ∈ said

section Said

variable {time : Timestamp} {e : Entry} {a : Except LogError Unit} {x : Exchange self.role}

theorem rounds_concat (unsent : sendsDecision x = false) : rounds (said ++ [x]) = rounds said := by
  simp [rounds, unsent]

theorem rounds_concat_of_sent (sent : sendsDecision x = true) :
    rounds (said ++ [x]) = rounds said + 1 := by
  simp [rounds, sent]

@[simp] theorem rounds_append_stepping :
    rounds (said ++ stepping time e a) = rounds said := by
  rw [rounds, List.countP_append]
  rfl

theorem awaiting_concat : awaiting (said ++ [x]) = awaitingAfter (awaiting said) x := by
  simp [awaiting]

@[simp] theorem awaiting_append_stepping :
    awaiting (said ++ stepping time e a) = awaiting said := by
  rw [awaiting, List.foldl_append]
  rfl

theorem heard_concat (unheard : heard? x = none) : heard (said ++ [x]) = heard said := by
  simp [heard, unheard]

@[simp] theorem heard_append_stepping : heard (said ++ stepping time e a) = heard said := by
  rw [heard, List.filterMap_append]
  exact List.append_nil _

theorem entered_concat {q : self.role.Request} {a : self.role.Answer q}
    (stores : self.role.stores q = false) : entered (said ++ [⟨q, a⟩]) = entered said := by
  rw [entered, List.filterMap_append]
  refine (congrArg (_ ++ ·) ?_).trans (List.append_nil _)
  rcases q with q | q
  · cases q with
    | append e => cases stores
    | _ => rfl
  · rfl

@[simp] theorem entered_append_stepping :
    entered (said ++ stepping time e a) = entered said ++ e.payload.acknowledged?.toList := by
  rw [entered, List.filterMap_append]
  cases h : e.payload.acknowledged? <;> simp [stepping, h, entered]

/-- Whose acknowledgement has been asked to be stored has it stored, or that has failed. -/
theorem confirmed_or_of_mem_entered (h : p ∈ entered said) :
    Confirmed (stored said) p ∨ ∃ e failure, e.payload = .acknowledged p ∧
      ⟨.inl (.append e), (.error failure : Except LogError Unit)⟩ ∈ said := by
  obtain ⟨⟨q, a⟩, mem, asked⟩ := List.mem_filterMap.1 h
  split at asked
  · rename_i e a' same
    have payload : e.payload = .acknowledged p := by
      cases carries : e.payload <;> simp [Payload.acknowledged?, carries] at asked
      rw [asked]
    cases a' with
    | ok u =>
      refine .inl (List.mem_map.2 ⟨e, List.mem_filterMap.2 ⟨_, mem, ?_⟩, payload⟩)
      rw [same]
      rfl
    | error failure => exact .inr ⟨e, failure, payload, same ▸ mem⟩
  · cases asked

end Said

/-- What a delivery may ask after what has been said. -/
inductive Delivers (c : Coordinator) (t : Transaction) (d : Decision) (history : List Entry)
    (said : List (Exchange c.role)) : c.role.Request → Prop where
  /-- The time. -/
  | now : Delivers c t d history said (.inl .now)
  /-- To let time pass between rounds. -/
  | pause {time : Duration} (closed : awaiting said = []) :
      Delivers c t d history said (.inr (.pause time))
  /-- To send the decision, if the last round is over and there is a try left, to each participant
  of whom no acknowledgement is entered. -/
  | send {participants : List ProcessId} (closed : awaiting said = [])
      (left : rounds said < c.config.retry.maxAttempts) (some : participants ≠ [])
      (once : participants.Nodup)
      (exactly : ∀ p, p ∈ participants ↔
        t.participants.contains p = true ∧ ¬Confirmed (history ++ stored said) p) :
      Delivers c t d history said
        (.inr (.sendDecision ⟨t.id, d⟩ participants c.config.ackTimeout))
  /-- What comes of it, from all those whose replies are still to be awaited. -/
  | await {awaited : List ProcessId} (still : awaiting said = awaited) (some : awaited ≠ [])
      (pending : ∀ p ∈ awaited, ¬Confirmed (history ++ stored said) p) :
      Delivers c t d history said (.inr (.awaitAcknowledgement ⟨t.id, d⟩ awaited))
  /-- To store the acknowledgement that has just been heard. -/
  | enter {e : Entry} {p : ProcessId} (own : e.actor = c.id) (about : e.transaction = t.id)
      (payload : e.payload = .acknowledged p)
      (last : heard said = entered said ++ [p]) :
      Delivers c t d history said (.inl (.append e))
  /-- To store the end, once every acknowledgement is entered. -/
  | finish {e : Entry} (closed : awaiting said = []) (own : e.actor = c.id)
      (about : e.transaction = t.id) (state : e.state = .done) (payload : e.payload = .none)
      (complete : ∀ p, t.participants.contains p = true → Confirmed (history ++ stored said) p) :
      Delivers c t d history said (.inl (.append e))
  /-- Nothing more, if the clock can not tell when the round that has just begun would be over. -/
  | panic (overdue : Overdue said) : Delivers c t d history said (.inr .panic)

/-- What is so when a delivery has ended. -/
structure Delivered (c : Coordinator) (t : Transaction) (history : List Entry)
    (said : List (Exchange c.role)) (acknowledged : Bool) : Prop where
  /-- There have been no more rounds than there were tries. -/
  bounded : rounds said ≤ c.config.retry.maxAttempts
  /-- There have been as many, or every acknowledgement is entered. -/
  exhausted : rounds said = c.config.retry.maxAttempts ∨
    ∀ p, t.participants.contains p = true → Confirmed (history ++ stored said) p
  /-- All replies of the last round have been awaited, or one has not come in time. -/
  closed : awaiting said = []
  /-- Whatever acknowledgement has been heard has been asked to be stored. -/
  noted : heard said = entered said
  /-- Whoever has been heard to acknowledge has it entered, unless that could not be stored. -/
  heeded : ∀ p ∈ heard said, Confirmed (history ++ stored said) p ∨
    ∃ e failure, e.payload = .acknowledged p ∧
      ⟨.inl (.append e), (.error failure : Except LogError Unit)⟩ ∈ said
  /-- It tells whether each acknowledgement is entered once and the end is logged. -/
  told : acknowledged = true ↔
    (∀ p, t.participants.contains p = true →
      ((history ++ stored said).map Entry.payload).count (.acknowledged p) = 1) ∧
    ∃ e ∈ history ++ stored said, e.state = .done
  /-- Otherwise the end is not logged, which it has been asked to be if every acknowledgement is
  entered, and the transaction is found unfinished. -/
  unfinished : acknowledged = false → (∀ e ∈ history ++ stored said, e.state ≠ .done) ∧
    ((∀ p, t.participants.contains p = true → Confirmed (history ++ stored said) p) →
      FailsToEnd said) ∧
    ∀ log, Log.history log c.id t.id = history ++ stored said →
      t.id ∈ Log.transactions (Log.scanIncomplete log c.id)

/-! ## The invariant -/

/-- A transaction is what its history and the entries stored since lead to, and is decided. -/
structure Delivering (t : Transaction) (d : Decision) (history entries : List Entry)
    (t' : Transaction) : Prop where
  /-- It is the same transaction. -/
  id : t'.id = t.id
  /-- With the same participants. -/
  participants : t'.participants = t.participants
  /-- It is decided. -/
  decided : t'.decision = some d
  /-- All its entries have been new. -/
  accumulates : Transaction.Accumulates (history ++ entries) t'

section Delivering

variable {entries : List Entry} {e : Entry} {next : CoordinatorState} {payload : Payload}

theorem Delivering.summary (h : Delivering t d history entries t') :
    t'.Summarizes (history ++ entries) :=
  Transaction.summarizes_of_replay h.accumulates.replay

theorem Delivering.wellFormed (h : Delivering t d history entries t') : t'.WellFormed :=
  Transaction.wellFormed_of_replay h.accumulates.replay

theorem Delivering.confirmed_iff (h : Delivering t d history entries t') :
    Confirmed (history ++ entries) p ↔ t'.acknowledged.contains p = true :=
  (h.summary.acknowledged p).symm

theorem Delivering.mem_unacknowledged_iff (h : Delivering t d history entries t') :
    p ∈ t'.unacknowledged ↔
      t.participants.contains p = true ∧ ¬Confirmed (history ++ entries) p := by
  rw [h.confirmed_iff, ← h.participants]
  simp [Transaction.unacknowledged, SortedSet.mem_toList_iff]

theorem Delivering.confirmed_of_nil (h : Delivering t d history entries t')
    (none : t'.unacknowledged = []) (member : t.participants.contains p = true) :
    Confirmed (history ++ entries) p := by
  by_contra missing
  have left := h.mem_unacknowledged_iff.2 ⟨member, missing⟩
  rw [none] at left
  cases left

/-- A transaction with somebody left has not ended. -/
theorem Delivering.unfinished (h : Delivering t d history entries t') {awaited : List ProcessId}
    (awaits : AwaitsAcknowledgements t' awaited) (some : awaited ≠ []) : t'.state ≠ .done := by
  intro done
  obtain ⟨p, hp⟩ := List.exists_mem_of_ne_nil _ some
  obtain ⟨member, missing⟩ := awaits.pending p hp
  rw [h.wellFormed.finished done p member] at missing
  cases missing

/-- A step that is new keeps the decision. -/
theorem Delivering.advance (h : Delivering t d history entries t')
    (advances : t'.Advances next payload) (takes : self.Takes t' next payload e) :
    Delivering t d history (entries ++ [e]) (t'.record next payload) where
  id := (Transaction.id_record ..).trans h.id
  participants := (Transaction.participants_record ..).trans h.participants
  decided := (Transaction.decision_record advances).2 (.inl h.decided)
  accumulates := by
    rw [← List.append_assoc]
    exact h.accumulates.advance takes.apply

end Delivering

/-- Nothing that has been heard is left to be entered, and so many tries are left. -/
structure Settled (c : Coordinator) (t : Transaction) (d : Decision) (history : List Entry)
    (left : ℕ) (said : List (Exchange c.role)) (t' : Transaction) : Prop
    extends Delivering t d history (stored said) t' where
  /-- Every acknowledgement heard has been asked to be stored. -/
  noted : heard said = entered said
  /-- The tries there have been and those that are left. -/
  tries : rounds said + left = c.config.retry.maxAttempts

/-- A question that stores nothing, is no further round, and hears no acknowledgement. -/
theorem Settled.quiet {q : self.role.Request} {a : self.role.Answer q}
    (h : self.Settled t d history left said t') (stores : self.role.stores q = false)
    (unsent : sendsDecision ⟨q, a⟩ = false) (unheard : heard? ⟨q, a⟩ = none) :
    self.Settled t d history left (said ++ [⟨q, a⟩]) t' where
  toDelivering := by
    rw [stored_concat_of_not_append stores]
    exact h.toDelivering
  noted := by rw [heard_concat unheard, entered_concat stores, h.noted]
  tries := by rw [rounds_concat unsent, h.tries]

/-- Where a delivery ends it tells whether the transaction has. -/
theorem Settled.delivered (h : self.Settled t d history left said t') (closed : awaiting said = [])
    (exhausted : left = 0 ∨ t'.unacknowledged = [])
    (missed : t'.unacknowledged = [] → t'.state ≠ .done → FailsToEnd said)
    {acknowledged : Bool} (told : acknowledged = true ↔ t'.state = .done) :
    self.Delivered t history said acknowledged where
  bounded := h.tries ▸ Nat.le_add_right _ _
  exhausted := by
    rcases exhausted with rfl | none
    · exact .inl h.tries
    · exact .inr fun p => h.confirmed_of_nil none
  closed := closed
  noted := h.noted
  heeded p hp := by
    refine (confirmed_or_of_mem_entered (h.noted ▸ hp)).imp_left fun confirmed => ?_
    rw [Confirmed, List.map_append]
    exact List.mem_append_right _ confirmed
  told := by
    rw [told, ← h.summary.done]
    refine ⟨fun done => ⟨fun p member => ?_, done⟩, And.right⟩
    rw [h.accumulates.count_acknowledged, h.wellFormed.finished done p (h.participants ▸ member)]
    rfl
  unfinished no := by
    have open_ : t'.state ≠ .done := fun done => by simp [told.2 done] at no
    refine ⟨fun e he done => open_ (h.summary.done.2 ⟨e, he, done⟩), fun all => ?_, ?_⟩
    · refine missed (List.eq_nil_iff_forall_not_mem.2 fun p hp => ?_) open_
      obtain ⟨member, missing⟩ := h.mem_unacknowledged_iff.1 hp
      exact missing (all p member)
    · intro log same
      refine Log.mem_transactions_scan_iff.2 ((Log.isIncomplete_iff_of_replay ?_).2 open_)
      rw [same]
      exact h.accumulates.replay

/-! ## The loops -/

/-- The contract of a delivery. It may be told anything. -/
abbrev delivery (c : Coordinator) (t : Transaction) (d : Decision) (history : List Entry) :
    Contract (interface.sharing Memory) (List (Exchange c.role)) :=
  c.role.hearing (c.Delivers t d history) fun _ _ _ => True

variable {err : CommitError → Memory → List (Exchange self.role) → Prop}

/-- An acknowledgement that has just been heard is asked to be stored; if it can not be it counts as
missing. -/
theorem Delivering.meets_acknowledged {awaited : List ProcessId}
    (h : Delivering t d history (stored said) t') (last : heard said = entered said ++ [p])
    (tries : rounds said + left = self.config.retry.maxAttempts)
    (awaits : AwaitsAcknowledgements t' awaited) (hp : p ∈ awaited)
    (still : awaiting said = awaited.erase p) :
    (self.transition t' t'.state (.acknowledged p)).Meets (self.delivery t d history)
      (fun t'' _ said' => self.Settled t d history left said' t'' ∧
        AwaitsAcknowledgements t'' (awaited.erase p) ∧ awaiting said' = awaited.erase p)
      (fun _ _ said' => self.Settled t d history left said' t' ∧
        AwaitsAcknowledgements t' (awaited.erase p) ∧ awaiting said' = awaited.erase p)
      memory said := by
  obtain ⟨member, new⟩ := awaits.pending p hp
  have advances : t'.Advances t'.state (.acknowledged p) :=
    .acknowledged (by simp [h.decided]) (h.unfinished awaits (List.ne_nil_of_mem hp)) member new
  -- whether it can be stored or not, it has been asked to be
  have noted {time : Timestamp} {e : Entry} {a : Except LogError Unit}
      (takes : self.Takes t' t'.state (.acknowledged p) e) :
      heard (said ++ stepping time e a) = entered (said ++ stepping time e a) := by
    rw [heard_append_stepping, entered_append_stepping, takes.carries, last]
    rfl
  refine meets_transition_hearing advances .now (fun time e takes => ?_)
    (fun time e memory₃ takes => ?_) fun time e failure memory₃ takes _ => ?_
  · refine .enter takes.actor (takes.transaction.trans h.id) takes.carries ?_
    rw [heard_concat rfl, entered_concat rfl, last]
  · have h : Delivering t d history (stored (said ++ stepping time e (.ok ())))
        (t'.record t'.state (.acknowledged p)) := by
      simpa using h.advance advances takes
    exact ⟨⟨h, noted takes, by simpa using tries⟩, awaits.record, by simpa using still⟩
  · have h : Delivering t d history (stored (said ++ stepping time e (.error failure))) t' := by
      simpa using h
    exact ⟨⟨h, noted takes, by simpa using tries⟩, awaits.erase, by simpa using still⟩

/-- In a round whoever has been heard is awaited no more, whatever has come of it, and everybody
else is until one is not heard in time. -/
theorem Settled.meets_collectAcknowledgements {awaited : List ProcessId} {outstanding : ℕ}
    (h : self.Settled t d history left said t') (awaits : AwaitsAcknowledgements t' awaited)
    (still : awaiting said = awaited) (count : awaited.length = outstanding) :
    (self.collectAcknowledgements ⟨t.id, d⟩ outstanding awaited t').Meets
      (self.delivery t d history)
      (fun t'' _ said' => self.Settled t d history left said' t'' ∧ awaiting said' = []) err memory
      said := by
  refine meets_collectAcknowledgements_of
    (I := fun awaited t' _ said' => self.Settled t d history left said' t' ∧
      AwaitsAcknowledgements t' awaited ∧ awaiting said' = awaited) count
    (fun _ _ _ h => ⟨h.1, h.2.2⟩) ?_ ⟨h, awaits, still⟩
  rintro awaited t₁ memory₁ said₁ nonempty ⟨h, awaits, still⟩
  refine meets_ask_hearing (.await still nonempty fun p hp confirmed => ?_)
    fun reply? memory₂ _ => ?_
  · rw [h.confirmed_iff, (awaits.pending p hp).2] at confirmed
    cases confirmed
  refine ⟨fun late => ⟨h.quiet rfl rfl (by rw [late]; rfl), ?_⟩, fun reply replied => ?_⟩
  · rw [awaiting_concat, late]
    rfl
  subst replied
  have fewer : awaiting (said₁ ++ [⟨.inr (.awaitAcknowledgement ⟨t.id, d⟩ awaited), some reply⟩]) =
      awaited.erase reply.sender := by
    rw [awaiting_concat, still]
    rfl
  refine ⟨fun failure failed => ⟨h.quiet rfl rfl ?_, awaits.erase, fewer⟩, fun acknowledged => ?_⟩
  · simp [heard?, failed, Except.toOption]
  refine Delivering.meets_acknowledged ?_ ?_ ?_ awaits reply.sender_mem fewer
  · rw [stored_concat_of_not_append rfl]
    exact h.toDelivering
  · rw [entered_concat rfl, ← h.noted]
    simp [heard, heard?, acknowledged, Except.toOption]
  · rw [rounds_concat rfl, h.tries]

/-- Rounds follow as long as there is somebody left and a try. -/
theorem Settled.meets_deliverRounds {round : ℕ} (h : self.Settled t d history left said t')
    (closed : awaiting said = []) :
    (self.deliverRounds ⟨t.id, d⟩ left round t').Meets (self.delivery t d history)
      (fun t'' _ said' => awaiting said' = [] ∧ ∃ left', self.Settled t d history left' said' t'' ∧
        (left' = 0 ∨ t''.unacknowledged = [])) err memory said := by
  refine meets_deliverRounds_of
    (I := fun left t' _ said' => self.Settled t d history left said' t' ∧ awaiting said' = [])
    ?_ ?_ ?_ ?_ ⟨h, closed⟩
  · exact fun t₁ memory₁ said₁ h => ⟨h.2, 0, h.1, .inl rfl⟩
  · exact fun left t₁ memory₁ said₁ h none => ⟨h.2, left + 1, h.1, .inr none⟩
  · rintro left t₁ time memory₁ said₁ ⟨h, closed⟩
    refine meets_ask_hearing (.pause closed) fun _ memory₂ _ => ⟨h.quiet rfl rfl rfl, ?_⟩
    rw [awaiting_concat, closed]
    rfl
  · rintro left t₁ memory₁ said₁ ⟨h, closed⟩ some
    have awaits := awaitsAcknowledgements_unacknowledged t₁
    have tries := h.tries
    refine meets_ask_hearing (.send closed (by omega) some awaits.nodup fun p =>
      h.mem_unacknowledged_iff) fun start memory₂ _ => ?_
    refine meets_within.2 ⟨fun _ => ?_, fun late =>
      .panic (.decision List.getLast?_concat late)⟩
    refine Settled.meets_collectAcknowledgements ⟨?_, ?_, ?_⟩ awaits awaiting_concat rfl
    · rw [stored_concat_of_not_append rfl]
      exact h.toDelivering
    · rw [heard_concat rfl, entered_concat rfl, h.noted]
    · rw [rounds_concat_of_sent rfl]
      omega

/-- What comes of delivering the decision on a transaction, whatever the coordinator is told, and
whatever other calls do to its memory meanwhile. It sends the decision in rounds, to exactly those
participants of whom no acknowledgement is entered at the time, as long as there are such and there
is a try left, and awaits the replies of all of them until one does not come in time; it stores
every acknowledgement that it hears, and the end once all are entered; and it asks nothing else. It
panics only where a round has begun whose end its clock can not tell. It never fails, and tells
whether every acknowledgement is entered once and the end is logged; otherwise the transaction is
found unfinished. -/
theorem deliver_runs_rounds {n : Node self.role} (h : self.Reachable n)
    (logged : self.Logged n.log t) (decided : t.decision = some d) (memory : Memory) :
    (self.deliver t d).Meets (self.delivery t d (Log.history n.log self.id t.id))
      (fun acknowledged _ said =>
        self.Delivered t (Log.history n.log self.id t.id) said acknowledged)
      (fun _ _ _ => False) memory [] := by
  generalize same : Log.history n.log self.id t.id = history
  have begins : self.Settled t d history self.config.retry.maxAttempts [] t :=
    ⟨⟨rfl, rfl, decided, by simpa [← same] using h.accumulates_of_logged logged⟩, rfl,
      Nat.zero_add _⟩
  refine meets_deliver_of ((begins.meets_deliverRounds rfl).imp_ok ?_)
  rintro t₁ memory₁ said₁ ⟨closed, left, h, exhausted⟩
  refine ⟨fun some => ?_, fun none => ⟨fun done => ?_, fun open_ => ?_⟩⟩
  · have open_ := h.unfinished (awaitsAcknowledgements_unacknowledged t₁) some
    exact h.delivered closed exhausted (fun none => absurd none some) (by simpa using open_)
  · exact h.delivered closed exhausted (fun _ open_ => absurd done open_) (by simpa using done)
  have advances := advances_done h.wellFormed open_ (by simp [h.decided]) none
  -- the end is no acknowledgement, and no further round
  have noted {time : Timestamp} {e : Entry} {a : Except LogError Unit}
      (takes : self.Takes t₁ .done .none e) :
      heard (said₁ ++ stepping time e a) = entered (said₁ ++ stepping time e a) := by
    rw [heard_append_stepping, entered_append_stepping, takes.carries, h.noted]
    exact (List.append_nil _).symm
  have tries {time : Timestamp} {e : Entry} {a : Except LogError Unit} :
      rounds (said₁ ++ stepping time e a) + left = self.config.retry.maxAttempts := by
    rw [rounds_append_stepping, h.tries]
  refine meets_transition_hearing advances .now (fun time e takes => ?_)
    (fun time e memory₂ takes => ?_) fun time e failure memory₂ takes _ => ?_
  · refine .finish (awaiting_concat.trans closed) takes.actor (takes.transaction.trans h.id)
      takes.state takes.carries ?_
    intro p member
    rw [stored_concat_of_not_append rfl]
    exact h.confirmed_of_nil none member
  · have done := Transaction.state_record advances
    have ended : self.Settled t d history left (said₁ ++ stepping time e (.ok ()))
        (t₁.record .done .none) :=
      ⟨by simpa using h.advance advances takes, noted takes, tries⟩
    exact ended.delivered (by simpa using closed) (.inr none) (fun _ open_ => absurd done open_)
      (by simpa using done)
  · have missed : self.Settled t d history left (said₁ ++ stepping time e (.error failure)) t₁ :=
      ⟨by simpa using h.toDelivering, noted takes, tries⟩
    refine missed.delivered (by simpa using closed) (.inr none) (fun _ _ => ?_)
      (by simpa using open_)
    exact ⟨e, failure, takes.carries, takes.state, by simp [stepping]⟩

/-- Everybody to whom a decision is sent acknowledges it, and every entry is stored. -/
def acknowledges (c : Coordinator) : (q : c.role.Request) → Option (c.role.Answer q)
  | .inl .now => some .epoch
  | .inl (.append _) => some (.ok ())
  | .inr (.sendDecision _ _ _) => some Timestamp.epoch
  | .inr (.awaitAcknowledgement _ (p :: _)) =>
    some (some { sender := p, sender_mem := .head _, result := .ok () })
  | _ => none

/-- Where a transaction has been decided to commit and nobody has acknowledged, the commit is
delivered in one round if its participant acknowledges it. -/
theorem deliver_runs_rounds_decidedRun :
    (default : Coordinator).Reachable decidedRun ∧
    ¬(default : Coordinator).AcknowledgementLogged decidedRun.log deal party ∧
    ∃ t, (default : Coordinator).Logged decidedRun.log t ∧ t.decision = some .commit ∧
      ∃ said memory, follow (acknowledges default)
          (((default : Coordinator).deliver t .commit).program decidedRun.memory) =
            (said, some (.ok true, memory)) ∧
        rounds said = 1 ∧ heard said = [party] ∧ (default : Coordinator).Delivered t
          (Log.history decidedRun.log (default : Coordinator).id deal) said true := by
  have reads : (Transaction.replay (Log.history decidedRun.log (default : Coordinator).id
      deal)).toOption.map (fun t =>
        let followed := follow (acknowledges default)
          (((default : Coordinator).deliver t .commit).program decidedRun.memory)
        (t.id, t.decision, followed.2.bind fun ended => ended.1.toOption, rounds followed.1,
          heard followed.1)) = some (deal, some .commit, some true, 1, [party]) := by
    decide +kernel
  cases replay : Transaction.replay (Log.history decidedRun.log (default : Coordinator).id deal)
    with
  | error failure => simp [replay, Except.toOption] at reads
  | ok t =>
    simp only [replay, Except.toOption, Option.map_some, Option.some.injEq, Prod.mk.injEq] at reads
    obtain ⟨about, decided, ended, round, hears⟩ := reads
    have logged : (default : Coordinator).Logged decidedRun.log t := by rwa [Logged, about]
    have delivers := deliver_runs_rounds reachable_decidedRun logged decided decidedRun.memory
    obtain ⟨⟨_ | _, memory⟩, ends, ⟨⟩⟩ := Option.bind_eq_some_iff.1 ended
    have delivered := post_of_follow delivers (fun _ _ _ _ => trivial) ends
    exact ⟨reachable_decidedRun, by decide +kernel, t, logged, decided, _, memory,
      Prod.ext rfl ends, round, hears, about ▸ delivered⟩

end Coordinator

end AtomicCommit

import AtomicCommit.Coordinator.Recovery
import AtomicCommit.Proofs.Process.Discipline
import AtomicCommit.Proofs.Transaction.Replay

/-!
# How a coordinator conducts itself

A coordinator as a kind of process, and the discipline it works under: a transaction is changed
only by the call that drew its identifier, or by a recovery; what is in memory is what the log
replays to; nothing is asked or answered that the log does not bear out.

## Main definitions

* `Coordinator.Operation`, `Coordinator.role`: what a coordinator may be asked to do.
* `Coordinator.Commissioned`: what a call was asked to run.
* `Coordinator.Asks`, `Coordinator.Returns`: what bears out a question and a result.
* `Coordinator.discipline`: the discipline.
-/

namespace AtomicCommit.Coordinator

/-- What a coordinator may be asked to do. -/
inductive Operation where
  /-- To run a new transaction. -/
  | begin (participants : SortedSet ProcessId) (operations : Assignment) (timeout : Duration)
  /-- To finish what the log shows as unfinished. -/
  | recover
  /-- To tell what is known of a transaction. -/
  | queryState (transaction : TransactionId)
  /-- To tell the decision on a transaction. -/
  | queryDecision (transaction : TransactionId)
  /-- To drop a finished transaction from memory. -/
  | forget (transaction : TransactionId)

namespace Operation

/-- The result of an operation. -/
abbrev Result : Operation → Type
  | begin _ _ _ => Except CommitError CommitOutcome
  | recover => Except RecoveryError RecoveryReport
  | queryState _ => Except CommitError (Option Transaction)
  | queryDecision _ => Except CommitError (Option Decision)
  | forget _ => Except CommitError Bool

/-- Whether an operation changes transactions. -/
def drives : Operation → Bool
  | begin _ _ _ | recover => true
  | _ => false

/-- Whether two operations may overlap. Transactions may be begun side by side and queries are
answered at any time, but recovery runs before a restarted node accepts new work: while one is under
way nothing else that changes transactions is. -/
def overlaps : Operation → Operation → Bool
  | recover, op => !op.drives
  | op, recover => !op.drives
  | _, _ => true

end Operation

/-- The program of an operation. -/
def run (self : Coordinator) : (op : Operation) → (memory : Memory) →
    Program (interface.sharing Memory) (op.Result × Memory)
  | .begin participants operations timeout => (self.begin participants operations timeout).program
  | .recover => self.recover.program
  | .queryState tx => (self.queryState tx).program
  | .queryDecision tx => (self.queryDecision tx).program
  | .forget tx => (forget tx : Step Bool).program

/-- A coordinator as a kind of process. -/
abbrev role (self : Coordinator) : Role where
  name := self.id
  surroundings := surroundings
  fatal
    | .panic => true
    | _ => false
  mute
    | .panic, _ => inferInstanceAs (IsEmpty Empty)
  Copy := Transaction
  Operation := Operation
  Result := Operation.Result
  program := self.run

variable (self : Coordinator)

/-! ## What the past tells -/

/-- A call has drawn an identifier. -/
def Drawn (past : List (Moment self.role)) (call : ℕ) (tx : TransactionId) : Prop :=
  ∃ log, ⟨call, .answered (.inr .freshId) tx, log⟩ ∈ past

/-- A call has heard a vote. -/
def HeardVote (past : List (Moment self.role)) (call : ℕ) (tx : TransactionId) (p : ProcessId)
    (v : Vote) : Prop :=
  ∃ awaited, ∃ reply : Reply awaited Vote, ∃ log, reply.sender = p ∧ reply.result = .ok v ∧
    ⟨call, .answered (.inr (.awaitVote tx awaited)) (some reply), log⟩ ∈ past

/-- A call has heard an acknowledgement. -/
def HeardAcknowledgement (past : List (Moment self.role)) (call : ℕ) (tx : TransactionId)
    (p : ProcessId) : Prop :=
  ∃ message awaited, ∃ reply : Reply awaited Unit, ∃ log, message.transaction = tx ∧
    reply.sender = p ∧ reply.result = .ok () ∧
    ⟨call, .answered (.inr (.awaitAcknowledgement message awaited)) (some reply), log⟩ ∈ past

end Coordinator

/-- Whether a transaction can not go on without an entry: all but acknowledgements and the end. -/
def Entry.isVital (e : Entry) : Bool :=
  match e.payload with
  | .acknowledged _ => false
  | .none => e.state ≠ .done
  | _ => true

namespace Coordinator

variable (self : Coordinator)

/-- A call has failed to store an entry that its transaction can not go on without. -/
def Failed (past : List (Moment self.role)) (call : ℕ) : Prop :=
  ∃ e failure log, e.isVital = true ∧
    ⟨call, .answered (.inl (.append e)) (.error failure), log⟩ ∈ past

/-- The transactions that a call may change: the one it has drawn, or all. -/
def claims (past : List (Moment self.role)) (call : ℕ) : Operation → Set TransactionId
  | .begin _ _ _ => {tx | self.Drawn past call tx}
  | .recover => Set.univ
  | _ => ∅

/-- A call works on a transaction by right. -/
def Entitled (past : List (Moment self.role)) (call : ℕ) (tx : TransactionId) : Prop :=
  ∃ op log, ⟨call, .started op, log⟩ ∈ past ∧ tx ∈ self.claims past call op

/-! ## What bears out a moment -/

/-- What a log says of a transaction. -/
def Logged (log : List Entry) (t : Transaction) : Prop :=
  Transaction.replay (Log.history log self.id t.id) = .ok t

/-- A call was asked to run this transaction. -/
def Commissioned (past : List (Moment self.role)) (call : ℕ) (t : Transaction) : Prop :=
  ∃ timeout log, ⟨call, .started (.begin t.participants t.operations timeout), log⟩ ∈ past

/-- The entry begins a new transaction as it was asked for, or is new to what the log says of one;
votes and acknowledgements have been heard. -/
inductive Extends (past : List (Moment self.role)) (log : List Entry) (call : ℕ) (e : Entry) :
    Prop where
  /-- A transaction begins. -/
  | begin {t : Transaction} (drawn : self.Drawn past call e.transaction)
      (fresh : Log.history log self.id e.transaction = [])
      (begin : Transaction.ofBegin? e = some t) (commissioned : self.Commissioned past call t)
  /-- A transaction goes on. -/
  | advance {t t' : Transaction} (logged : self.Logged log t) (apply : t.apply e = .ok (true, t'))
      (vote : ∀ p v, e.payload = .vote p v → self.HeardVote past call t.id p v)
      (acknowledged : ∀ p, e.payload = .acknowledged p →
        self.HeardAcknowledgement past call t.id p)

/-- A call has calls out, and the time at which it would cease to wait for their replies is beyond
what its clock can tell. -/
inductive Overruns (past : List (Moment self.role)) (call : ℕ) : Prop where
  /-- It has asked for votes. -/
  | votes {resuming : Bool} {messages : List (ProcessId × PrepareMessage)} {time : Duration}
      {start : Instant} {log : List Entry}
      (told : ⟨call, .answered (.inr (.requestVotes resuming messages time)) start, log⟩ ∈ past)
      (late : start.add? time = none)
  /-- It has sent a decision. -/
  | decision {message : DecisionMessage} {participants : List ProcessId} {start : Instant}
      {log : List Entry}
      (told : ⟨call, .answered (.inr (.sendDecision message participants self.config.ackTimeout))
        start, log⟩ ∈ past)
      (late : start.add? self.config.ackTimeout = none)

/-- What bears out a question. -/
def Asks (past : List (Moment self.role)) (log : List Entry) (call : ℕ) : self.role.Request → Prop
  | .inl (.append e) =>
    e.actor = self.id ∧ self.Entitled past call e.transaction ∧ self.Extends past log call e
  | .inr .freshId => ∀ tx, ¬self.Drawn past call tx
  | .inr (.requestVotes _ messages _) =>
    ∃ t, self.Logged log t ∧ self.Entitled past call t.id ∧ t.state = .preparing ∧
      messages = t.pendingVotes.map fun p => (p, self.prepareMessage t p)
  | .inr (.sendDecision message participants _) =>
    ∃ t, self.Logged log t ∧ self.Entitled past call t.id ∧ message.transaction = t.id ∧
      t.decision = some message.decision ∧ participants = t.unacknowledged
  | .inr (.awaitAcknowledgement message _) =>
    ∃ t, self.Logged log t ∧ message.transaction = t.id ∧ t.decision = some message.decision
  | .inr .panic => self.Overruns past call
  | _ => True

/-- What bears out a result. -/
def Returns (log : List Entry) : (op : Operation) → op.Result → Prop
  | .begin _ _ _, .ok outcome =>
    ∃ t d, self.Logged log t ∧ outcome.transaction = t.id ∧ t.decision = some d ∧
      outcome.outcome = d.outcome
  | .queryState tx, .ok none => Log.history log self.id tx = []
  | .queryState tx, .ok (some t) => t.id = tx ∧ self.Logged log t
  | .queryDecision tx, .ok answer =>
    Log.history log self.id tx = [] ∧ answer = some .abort ∨
      ∃ t, t.id = tx ∧ self.Logged log t ∧ answer = t.decision
  | _, _ => True

/-- What bears out a moment. Nobody draws an identifier twice, and a call that has failed to store a
vital entry asks nothing more. -/
def Justified (past : List (Moment self.role)) (m : Moment self.role) : Prop :=
  match m.event with
  | .asked q => ¬self.Failed past m.call ∧ self.Asks past m.log m.call q
  | .answered (.inr .freshId) tx => ∀ call, ¬self.Drawn past call tx
  | .returned op result => self.Returns m.log op result
  | _ => True

/-- What is kept true of a transaction: it is unknown, or its history replays and a copy in memory
is just that and unfinished. -/
inductive Kept (past : List (Moment self.role)) (tx : TransactionId) (history : List Entry)
    (copy : Option Transaction) : Prop where
  /-- Nothing is known. -/
  | unknown (history : history = []) (copy : copy = none)
  /-- It has begun. -/
  | known {t : Transaction} (id : t.id = tx) (replay : Transaction.replay history = .ok t)
      (drawn : ∃ call, self.Drawn past call tx)
      (copy : ∀ t', copy = some t' → t' = t ∧ t.state ≠ .done)

/-- The discipline of a coordinator. -/
abbrev discipline : Discipline self.role where
  claims := self.claims
  Kept := self.Kept
  Justified := self.Justified

/-! ## The laws of the discipline -/

variable {self} {past later : List (Moment self.role)} {call : ℕ} {tx : TransactionId}

theorem drawn_append :
    self.Drawn (past ++ later) call tx ↔ self.Drawn past call tx ∨ self.Drawn later call tx := by
  simp only [Drawn, List.mem_append, exists_or]

theorem drawn_iff_momentsOf :
    self.Drawn past call tx ↔ self.Drawn (momentsOf past call) call tx := by
  constructor
  · rintro ⟨log, h⟩
    exact ⟨log, mem_momentsOf h rfl⟩
  · rintro ⟨log, h⟩
    exact ⟨log, mem_of_mem_momentsOf h⟩

theorem Drawn.mono (h : self.Drawn past call tx) (sub : past <+: later) :
    self.Drawn later call tx := by
  obtain ⟨log, h⟩ := h
  exact ⟨log, sub.subset h⟩

theorem Failed.mono (h : self.Failed past call) (sub : past <+: later) :
    self.Failed later call := by
  obtain ⟨e, failure, log, vital, h⟩ := h
  exact ⟨e, failure, log, vital, sub.subset h⟩

theorem Overruns.mono (h : self.Overruns past call) (sub : past <+: later) :
    self.Overruns later call := by
  cases h with
  | votes told late => exact .votes (sub.subset told) late
  | decision told late => exact .decision (sub.subset told) late

theorem Commissioned.mono {t : Transaction} (h : self.Commissioned past call t)
    (sub : past <+: later) : self.Commissioned later call t := by
  obtain ⟨timeout, log, h⟩ := h
  exact ⟨timeout, log, sub.subset h⟩

theorem HeardVote.mono {p : ProcessId} {v : Vote} (h : self.HeardVote past call tx p v)
    (sub : past <+: later) : self.HeardVote later call tx p v := by
  obtain ⟨awaited, reply, log, hp, hv, h⟩ := h
  exact ⟨awaited, reply, log, hp, hv, sub.subset h⟩

theorem HeardAcknowledgement.mono {p : ProcessId} (h : self.HeardAcknowledgement past call tx p)
    (sub : past <+: later) : self.HeardAcknowledgement later call tx p := by
  obtain ⟨message, awaited, reply, log, ht, hp, hr, h⟩ := h
  exact ⟨message, awaited, reply, log, ht, hp, hr, sub.subset h⟩

theorem claims_mono {op : Operation} (sub : past <+: later) :
    self.claims past call op ⊆ self.claims later call op := by
  cases op with
  | begin _ _ _ => exact fun _ h => Drawn.mono h sub
  | _ => exact subset_rfl

/-- An identifier is drawn by one call only. -/
theorem Drawn.unique (h : self.discipline.Chronicle past) {other : ℕ}
    (drawn : self.Drawn past call tx) (drawn' : self.Drawn past other tx) : other = call := by
  induction h with
  | nil => simp [Drawn] at drawn
  | @snoc past m _ _ _ justified ih =>
    have last : ∀ {c}, self.Drawn [m] c tx → c = m.call ∧ ∀ c, ¬self.Drawn past c tx := by
      rintro c ⟨log, h⟩
      cases List.mem_singleton.1 h
      exact ⟨rfl, justified⟩
    rcases drawn_append.1 drawn with h | h <;> rcases drawn_append.1 drawn' with h' | h'
    · exact ih h h'
    · exact absurd h ((last h').2 _)
    · exact absurd h' ((last h).2 _)
    · exact (last h').1.trans (last h).1.symm

theorem discipline_lawful : self.discipline.Lawful where
  kept_nil _ := .unknown rfl rfl
  kept_mono past later tx history copy h := by
    cases h with
    | unknown history copy => exact .unknown history copy
    | known id replay drawn copy =>
      obtain ⟨call, drawn⟩ := drawn
      exact .known id replay ⟨call, drawn.mono (List.prefix_append _ _)⟩ copy
  kept_none past tx history copy h := by
    cases h with
    | unknown history _ => exact .unknown history rfl
    | known id replay drawn _ => exact .known id replay drawn (by simp)
  claims_own past past' call op same := by
    cases op with
    | begin _ _ _ =>
      ext tx
      show self.Drawn past call tx ↔ self.Drawn past' call tx
      rw [drawn_iff_momentsOf, same, ← drawn_iff_momentsOf]
    | _ => rfl
  claims_append past call op e a log := claims_mono (List.prefix_append _ _)

/-- Calls that may overlap work on different transactions. -/
theorem disjoint_claims (h : self.discipline.Chronicle past) {other : ℕ} {op op' : Operation}
    (ne : other ≠ call) (overlaps : op'.overlaps op = true) :
    Disjoint (self.claims past other op') (self.claims past call op) := by
  rw [Set.disjoint_left]
  intro tx claimed claimed'
  cases op with
  | begin _ _ _ =>
    cases op' with
    | begin _ _ _ => exact ne (Drawn.unique h claimed' claimed)
    | recover => simp [Operation.overlaps, Operation.drives] at overlaps
    | _ => exact claimed
  | recover => cases op' <;> simp_all [Operation.overlaps, Operation.drives, claims]
  | _ => exact claimed'

end AtomicCommit.Coordinator

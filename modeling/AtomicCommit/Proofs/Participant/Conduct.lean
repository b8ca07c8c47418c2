import AtomicCommit.Participant.Recovery
import AtomicCommit.Proofs.Process.Calm
import AtomicCommit.Proofs.Transaction.Record

/-!
# How a participant conducts itself

A participant as a kind of process, and the discipline it works under. Messages on one transaction
are handled one at a time, so the call that handles one has the transaction to itself. Recovery runs
before a restarted node accepts new work, so it has the transactions that it has found to itself
until all are restored; later it has the one that it resolves, and while it waits for a coordinator
it has none. What the log holds of a transaction is one of the histories of `Record.History`, and
what is in memory is the record it leads to.

## Main definitions

* `Participant.Operation`, `Participant.role`: what a participant may be asked to do.
* `Participant.locks`: the transactions that a call has to itself.
* `Participant.dealings`: what a call has done with payloads.
* `Participant.Uses`: what a call may ask of the resource manager, and for which transaction.
* `Participant.Settles`: what a call that was asked for its vote has done with payloads at its end.
* `Participant.Asks`, `Participant.Returns`: what bears out a question and a result.
* `Participant.discipline`: the discipline.
-/

namespace AtomicCommit.Participant

/-- What a participant may be asked to do. -/
inductive Operation where
  /-- To vote. -/
  | handlePrepare (message : PrepareMessage)
  /-- To apply a decision. -/
  | handleDecision (transaction : TransactionId) (decision : Decision)
  /-- To tell the vote it has logged. -/
  | queryVote (transaction : TransactionId)
  /-- To tell the state of a transaction. -/
  | queryState (transaction : TransactionId)
  /-- To tell what is known of a transaction. -/
  | queryRecord (transaction : TransactionId)
  /-- To drop a resolved transaction from memory. -/
  | forget (transaction : TransactionId)
  /-- To resolve what the log shows as prepared. -/
  | recover

namespace Operation

/-- The result of an operation. -/
abbrev Result : Operation → Type
  | handlePrepare _ => Except CommitError Vote
  | handleDecision _ _ => Except CommitError Unit
  | queryVote _ => Except CommitError (Option Vote)
  | queryState _ => Except CommitError (Option ParticipantState)
  | queryRecord _ => Except CommitError (Option Record)
  | forget _ => Except CommitError Bool
  | recover => Except RecoveryError RecoveryReport

end Operation

/-- The program of an operation. -/
def run (self : ProcessId) : (op : Operation) → (memory : Memory) →
    Program (interface.sharing Memory) (op.Result × Memory)
  | .handlePrepare message => (handlePrepare self message).program
  | .handleDecision tx d => (handleDecision self tx d).program
  | .queryVote tx => (queryVote self tx).program
  | .queryState tx => (state? self tx).program
  | .queryRecord tx => (record? self tx).program
  | .forget tx => (forget self tx).program
  | .recover => (recover self).program

/-- A participant as a kind of process. -/
abbrev role (self : ProcessId) : Role where
  name := self
  surroundings := surroundings
  Copy := Record
  Operation := Operation
  Result := Operation.Result
  program := run self

/-- A participant rests at all that it asks. -/
@[simp] theorem restsAt (self : ProcessId) (q : (role self).Request) :
    (role self).restsAt q = true := by
  cases q <;> rfl

variable (self : ProcessId)

/-! ## Who has a transaction to itself -/

/-- The transactions that a recovery has to itself after one more moment: first those that it has
found in the log, then the one whose decision it has been told.

Only the second is a lock that the recovery holds. That it has what it has found to itself, until it
asks for the first decision, is assumed of those who call: a recovery is to run before a participant
that has restarted accepts new work. Were such a transaction resolved and forgotten meanwhile, the
recovery would put it back into memory as prepared. -/
def recoveryLocks (locked : Set TransactionId) (m : Moment (role self)) : Set TransactionId :=
  match m.event with
  | .answered (.inl (.scan _)) (.ok entries) => {tx | tx ∈ Log.transactions entries}
  | .asked (.inr (.askDecision _ _)) => ∅
  | .answered (.inr (.askDecision _ tx)) _ => {tx}
  | _ => locked

/-- The transactions that a call has to itself. -/
def locks (past : List (Moment (role self))) (call : ℕ) : Operation → Set TransactionId
  | .handlePrepare message => {message.transaction}
  | .handleDecision tx _ => {tx}
  | .forget tx => {tx}
  | .recover => (momentsOf past call).foldl (recoveryLocks self) ∅
  | _ => ∅

/-- The questions at which a recovery takes or gives up transactions: the log is read, or a
coordinator is asked. -/
def pauses : interface.Request → Bool
  | .inl (.scan _) | .inr (.askDecision _ _) => true
  | _ => false

/-! ## What the past tells -/

/-- A call has been asked for its vote on behalf of a coordinator. -/
def AskedToVote (past : List (Moment (role self))) (call : ℕ) (tx : TransactionId)
    (coordinator : ProcessId) : Prop :=
  ∃ message log, message.transaction = tx ∧ message.coordinator = coordinator ∧
    ⟨call, .started (.handlePrepare message), log⟩ ∈ past

/-- A call has been told a decision, by a message or in answer to its question. -/
def Told (past : List (Moment (role self))) (call : ℕ) (tx : TransactionId) (d : Decision) : Prop :=
  (∃ log, ⟨call, .started (.handleDecision tx d), log⟩ ∈ past) ∨
    ∃ coordinator log,
      ⟨call, .answered (.inr (.askDecision coordinator tx)) (.ok (some d)), log⟩ ∈ past

/-- What a log says of a transaction. -/
def Sees (log : List Entry) (tx : TransactionId) : Option Record → Prop
  | none => Log.history log self tx = []
  | some r => Record.History tx (Log.history log self tx) r

/-! ## What a call does with payloads -/

/-- What a call does with a payload. -/
inductive Dealing where
  /-- It gets it from the resource manager. -/
  | obtained
  /-- It stores the entry that has it. -/
  | stored
  /-- It has it committed. -/
  | committed
  /-- It has it aborted. -/
  | aborted
  /-- It has the resource manager take hold of it again. -/
  | reacquired
deriving DecidableEq

/-- What storing an entry with some data does with a payload. -/
def storing? : Payload → Option (Dealing × PreparedPayload)
  | .prepared _ payload => some (.stored, payload)
  | _ => none

/-- What is done with which payload at a moment. -/
def dealing? : Event (role self) → Option (Dealing × PreparedPayload)
  | .answered (.inr (.prepare _)) (.ok payload) => some (.obtained, payload)
  | .answered (.inl (.append e)) (.ok ()) => storing? e.payload
  | .asked (.inr (.commit payload)) => some (.committed, payload)
  | .asked (.inr (.abort payload)) => some (.aborted, payload)
  | .asked (.inr (.restore payload)) => some (.reacquired, payload)
  | _ => none

/-- What a call has done with payloads, in order. -/
def dealings (past : List (Moment (role self))) (call : ℕ) : List (Dealing × PreparedPayload) :=
  (momentsOf past call).filterMap fun m => dealing? self m.event

/-- The decision that a recovery is to carry out after one more moment: the one that it has just
been told. -/
def mandateAfter (before : Option (TransactionId × Decision)) (m : Moment (role self)) :
    Option (TransactionId × Decision) :=
  match m.event with
  | .answered (.inr (.askDecision _ tx)) (.ok (some d)) => some (tx, d)
  | .answered (.inr (.askDecision _ _)) _ => none
  | _ => before

/-- The decision that a call is to carry out, and on which transaction. -/
def mandate (past : List (Moment (role self))) (call : ℕ) :
    Operation → Option (TransactionId × Decision)
  | .handleDecision tx d => some (tx, d)
  | .recover => (momentsOf past call).foldl (mandateAfter self) none
  | _ => none

/-- The log says that a transaction is prepared, with a payload. -/
structure Holding (p : ProcessId) (log : List Entry) (r : Record) (payload : PreparedPayload) :
    Prop where
  /-- This is what the log says of the transaction. -/
  sees : Sees p log r.transaction (some r)
  /-- It is prepared. -/
  prepared : r.state = .prepared
  /-- This is what the resource manager has prepared. -/
  payload : r.payload = some payload

/-- A payload of a record was given back to the resource manager after a restart. -/
def Reacquires (r : Record) (dealing : Dealing × PreparedPayload) : Prop :=
  dealing.1 = .reacquired ∧ r.payload = some dealing.2

/-- What a call may ask of the resource manager, and for which transaction. -/
inductive Uses (p : ProcessId) (past : List (Moment (role p))) (log : List Entry) (call : ℕ) :
    Request → TransactionId → Prop where
  /-- Asked for its vote on a transaction that is unknown, it has the operations checked. -/
  | check {message : PrepareMessage} {log₀ : List Entry}
      (started : ⟨call, .started (.handlePrepare message), log₀⟩ ∈ past)
      (unknown : Log.history log p message.transaction = []) (first : dealings p past call = []) :
      Uses p past log call (.canCommit message.operations) message.transaction
  /-- It has them prepared, once. -/
  | prepare {message : PrepareMessage} {log₀ : List Entry}
      (started : ⟨call, .started (.handlePrepare message), log₀⟩ ∈ past)
      (unknown : Log.history log p message.transaction = []) (first : dealings p past call = []) :
      Uses p past log call (.prepare message.operations) message.transaction
  /-- What it could not store it has aborted, once. -/
  | release {message : PrepareMessage} {payload : PreparedPayload} {e : Entry}
      {failure : LogError} {log₀ log₁ : List Entry}
      (started : ⟨call, .started (.handlePrepare message), log₀⟩ ∈ past)
      (unknown : Log.history log p message.transaction = [])
      (refused : ⟨call, .answered (.inl (.append e)) (.error failure), log₁⟩ ∈ past)
      (carried : e.payload = .prepared message.coordinator payload)
      (obtained : dealings p past call = [(.obtained, payload)]) :
      Uses p past log call (.abort payload) message.transaction
  /-- Told to commit, it has committed what is prepared. -/
  | commit {op : Operation} {r : Record} {payload : PreparedPayload} {log₀ : List Entry}
      (started : ⟨call, .started op, log₀⟩ ∈ past)
      (mandate : mandate p past call op = some (r.transaction, .commit))
      (holding : Holding p log r payload) :
      Uses p past log call (.commit payload) r.transaction
  /-- Told to abort, it has aborted what is prepared. -/
  | abort {op : Operation} {r : Record} {payload : PreparedPayload} {log₀ : List Entry}
      (started : ⟨call, .started op, log₀⟩ ∈ past)
      (mandate : mandate p past call op = some (r.transaction, .abort))
      (holding : Holding p log r payload) :
      Uses p past log call (.abort payload) r.transaction
  /-- Recovering, it has the payloads of what it has found given back, one after another in the
  order of the log, while all that it has found is still prepared. -/
  | restore {entries : List Entry} {found restored : List Record} {r : Record}
      {payload : PreparedPayload} {log₀ log₁ : List Entry}
      (started : ⟨call, .started .recover, log₀⟩ ∈ past)
      (scanned : ⟨call, .answered (.inl (.scan p)) (.ok entries), log₁⟩ ∈ past)
      (all : found.map Record.transaction = Log.transactions entries)
      (prepared : ∀ r ∈ found, ∃ payload, Holding p log r payload)
      (order : (restored ++ [r]).Sublist found)
      (dealt : List.Forall₂ Reacquires restored (dealings p past call))
      (carried : r.payload = some payload) :
      Uses p past log call (.restore payload) r.transaction

/-- What a call that was asked for its vote has done with payloads at its end: nothing, or what it
has obtained it has stored, or it has aborted it. -/
inductive Settles (p : ProcessId) (log : List Entry) (message : PrepareMessage) :
    List (Dealing × PreparedPayload) → Prop where
  /-- It has had to do with none. -/
  | nothing : Settles p log message []
  /-- It has stored the one that it obtained. -/
  | stored {r : Record} {payload : PreparedPayload} (holding : Holding p log r payload)
      (about : r.transaction = message.transaction)
      (coordinator : r.coordinator = some message.coordinator) :
      Settles p log message [(.obtained, payload), (.stored, payload)]
  /-- It has aborted the one that it obtained. -/
  | released {payload : PreparedPayload} :
      Settles p log message [(.obtained, payload), (.aborted, payload)]

/-! ## What bears out a moment -/

/-- The entry takes a transaction on, as the call has been asked to. -/
structure Extends (p : ProcessId) (past : List (Moment (role p))) (log : List Entry) (call : ℕ)
    (e : Entry) : Prop where
  /-- It leads to a history again. -/
  history : ∃ r, Record.History e.transaction (Log.history log p e.transaction ++ [e]) r
  /-- Who votes has been asked to. -/
  asked : ∀ coordinator, Record.coordinatorOf? e.payload = some (some coordinator) →
    AskedToVote p past call e.transaction coordinator
  /-- Who resolves has been told the decision. -/
  resolved : ∀ d, e.payload = .resolved d → Told p past call e.transaction d

/-- What bears out a question. -/
def Asks (past : List (Moment (role self))) (log : List Entry) (call : ℕ) :
    (role self).Request → Prop
  | .inl (.append e) => e.actor = self ∧ Extends self past log call e
  | .inr (.askDecision coordinator tx) =>
    (∃ log, ⟨call, .started .recover, log⟩ ∈ past) ∧
      ∃ e ∈ Log.history log self tx, ∃ payload, e.payload = .prepared coordinator payload
  | .inr q => ∃ tx, Uses self past log call q tx
  | _ => True

/-- What bears out a result. -/
def Returns (log : List Entry) : (op : Operation) → op.Result → Prop
  | .handlePrepare message, .ok vote =>
    ∃ r, Sees self log message.transaction (some r) ∧ vote = r.vote.getD .no
  | .handleDecision tx d, .ok _ =>
    d = .commit ∧ Sees self log tx none ∨ ∃ r, Sees self log tx (some r) ∧ r.state = .resolved d
  | .queryVote tx, .ok vote => ∃ found, Sees self log tx found ∧ vote = found.bind Record.vote
  | .queryState tx, .ok state => ∃ found, Sees self log tx found ∧ state = found.map Record.state
  | .queryRecord tx, .ok found => Sees self log tx found
  | _, _ => True

/-- What a call has done with payloads at its end is in order. -/
def Closes (past : List (Moment (role self))) (log : List Entry) (call : ℕ) : Operation → Prop
  | .handlePrepare message => Settles self log message (dealings self past call)
  | _ => True

/-- What bears out a moment. -/
def Justified (past : List (Moment (role self))) (m : Moment (role self)) : Prop :=
  match m.event with
  | .asked q => Asks self past m.log m.call q
  | .returned op result => Returns self m.log op result ∧ Closes self past m.log m.call op
  | _ => True

/-- What is kept true of a transaction: it is unknown, or has a history, and a copy in memory is the
record that this leads to. -/
inductive Kept (tx : TransactionId) (history : List Entry) (copy : Option Record) : Prop where
  /-- Nothing is known. -/
  | unknown (history : history = []) (copy : copy = none)
  /-- It has a history. -/
  | known {r : Record} (history : Record.History tx history r)
      (copy : ∀ r', copy = some r' → r' = r)

/-- The discipline of a participant. -/
abbrev discipline : Discipline (role self) where
  claims := locks self
  Kept _ := Kept
  Justified := Justified self

/-! ## The laws of the discipline -/

variable {self} {past later : List (Moment (role self))} {call : ℕ} {tx : TransactionId}

theorem AskedToVote.mono {coordinator : ProcessId} (h : AskedToVote self past call tx coordinator)
    (sub : past <+: later) : AskedToVote self later call tx coordinator := by
  obtain ⟨message, log, ht, hc, h⟩ := h
  exact ⟨message, log, ht, hc, sub.subset h⟩

theorem Told.mono {d : Decision} (h : Told self past call tx d) (sub : past <+: later) :
    Told self later call tx d := by
  rcases h with ⟨log, h⟩ | ⟨coordinator, log, h⟩
  · exact .inl ⟨log, sub.subset h⟩
  · exact .inr ⟨coordinator, log, sub.subset h⟩

/-- A moment that is about no pause leaves all locks as they are. -/
theorem locks_append {op : Operation} {m : Moment (role self)} (own : m.call = call)
    (keeps : ∀ locked, recoveryLocks self locked m = locked) :
    locks self (past ++ [m]) call op = locks self past call op := by
  cases op with
  | recover => simp [locks, momentsOf_own own, keeps]
  | _ => rfl

/-- What a question and its answer add to what a call has done. -/
theorem dealings_of_own {past' : List (Moment (role self))} {q : (role self).Request}
    {a : (role self).Answer q} {log log' : List Entry}
    (own : momentsOf past' call =
      momentsOf past call ++ [⟨call, .asked q, log⟩, ⟨call, .answered q a, log'⟩]) :
    dealings self past' call = dealings self past call ++
      ((dealing? self (.asked q)).toList ++ (dealing? self (.answered q a)).toList) := by
  rw [dealings, own, List.filterMap_append]
  cases asked : dealing? self (.asked q) <;> cases answered : dealing? self (.answered q a) <;>
    simp [dealings, asked, answered]

theorem discipline_lawful : (discipline self).Lawful where
  kept_nil _ := .unknown rfl rfl
  kept_mono _ _ _ _ _ h := h
  kept_none past tx history copy h := by
    cases h with
    | unknown history _ => exact .unknown history rfl
    | known history _ => exact .known history (by simp)
  claims_own past past' call op same := by cases op <;> simp only [locks, same]
  claims_append past call op e a log :=
    (locks_append (m := ⟨call, .answered (.inl (.append e)) a, log⟩) rfl fun _ => rfl).ge

/-- Whatever is kept is seen. -/
theorem Kept.sees {log : List Entry} {copy : Option Record}
    (h : Kept tx (Log.history log self tx) copy) : ∃ found, Sees self log tx found := by
  cases h with
  | unknown history _ => exact ⟨none, history⟩
  | known history _ => exact ⟨some _, history⟩

/-- A copy in memory is the record that the history leads to. -/
theorem Kept.history {history : List Entry} {copy : Option Record} {r : Record}
    (h : Kept tx history copy) (cached : copy = some r) : Record.History tx history r := by
  cases h with
  | unknown _ none => cases none.symm.trans cached
  | known history copy =>
    obtain rfl := copy r cached
    exact history

/-- What is seen is what the history replays to. -/
theorem Sees.replay {log : List Entry} {found : Option Record} (h : Sees self log tx found) :
    Record.replay (Log.history log self tx) = .ok found := by
  cases found with
  | none =>
    rw [Sees] at h
    rw [h]
    rfl
  | some r => exact Record.History.replay h

theorem sees_unique {log : List Entry} {found found' : Option Record} (h : Sees self log tx found)
    (h' : Sees self log tx found') : found = found' := by
  simpa using h.replay.symm.trans h'.replay

/-- What is seen is in the state that the log has last. -/
theorem Sees.lastState? {log : List Entry} {r : Record} (h : Sees self log tx (some r)) :
    Log.lastState? log self tx = some r.state.toState := by
  rw [Log.lastState?, Record.History.last h]

/-- What is seen to be prepared is held. -/
theorem Sees.holding {log : List Entry} {r : Record} {payload : PreparedPayload}
    (h : Sees self log tx (some r)) (prepared : r.state = .prepared)
    (carried : r.payload = some payload) : Holding self log r payload := by
  have id : r.transaction = tx := Record.History.transaction h
  subst id
  exact ⟨h, prepared, carried⟩

end AtomicCommit.Participant

import AtomicCommit.Config
import AtomicCommit.Host
import AtomicCommit.Transport.Call

/-!
# The surroundings of a coordinator

A coordinator calls its participants in parallel and takes their replies as they come. It opens a
round of calls with one question and then asks for one reply after another; each comes from a
participant whose reply is still awaited, and none comes once the time for the round is over.

How long a round has lasted is told by a clock that only goes forward. Its range is that of the
points in time, and a round whose end is beyond it is not waited for: its calls are out, and the
coordinator panics.
-/

namespace AtomicCommit.Coordinator

/-- What a coordinator asks besides its host. -/
inductive Request where
  /-- An identifier never used before. -/
  | freshId
  /-- To get the votes of participants, each by `Transport.ballot`, within a time. -/
  | requestVotes (resuming : Bool) (messages : List (ProcessId × PrepareMessage)) (time : Duration)
  /-- The next vote on a transaction, or why a participant gave none. -/
  | awaitVote (transaction : TransactionId) (awaited : List ProcessId)
  /-- To tell participants the decision within a time. -/
  | sendDecision (message : DecisionMessage) (participants : List ProcessId) (time : Duration)
  /-- The next acknowledgement of a decision, or why a participant gave none. -/
  | awaitAcknowledgement (message : DecisionMessage) (awaited : List ProcessId)
  /-- To let time pass. -/
  | pause (time : Duration)
  /-- Nothing: the call panics, and is over without a result. -/
  | panic

/-- A reading of the clock by which waiting is timed. -/
abbrev Instant := Timestamp

/-- What it is answered. When calls are out it is told when that was. -/
abbrev Answer : Request → Type
  | .freshId => TransactionId
  | .requestVotes _ _ _ | .sendDecision _ _ _ => Instant
  | .awaitVote _ awaited => Option (Reply awaited Vote)
  | .awaitAcknowledgement _ awaited => Option (Reply awaited Unit)
  | .pause _ => Unit
  | .panic => Empty

/-- The surroundings apart from the host. -/
abbrev surroundings : Interface := ⟨Request, Answer⟩

/-- All a coordinator may ask. -/
abbrev interface : Interface := Host.beside surroundings

variable {σ ε : Type}

/-- Makes a new identifier. -/
def freshId : Action interface σ ε TransactionId := Action.ask (I := interface) (.inr .freshId)

/-- Ends the call without a result. -/
def panic {α : Type} : Action interface σ ε α := do
  let never : Empty ← Action.ask (I := interface) (.inr .panic)
  nomatch never

/-- Goes on if the clock can tell the end of a time that starts now. -/
def within (time : Duration) (now : Instant) : Action interface σ ε Unit :=
  match now.add? time with
  | some _ => pure ()
  | none => panic

/-- Starts to collect votes; the time at which the requests are out. -/
def requestVotes (resuming : Bool) (messages : List (ProcessId × PrepareMessage))
    (time : Duration) : Action interface σ ε Instant :=
  Action.ask (I := interface) (.inr (.requestVotes resuming messages time))

/-- Waits for a vote. -/
def awaitVote (transaction : TransactionId) (awaited : List ProcessId) :
    Action interface σ ε (Option (Reply awaited Vote)) :=
  Action.ask (I := interface) (.inr (.awaitVote transaction awaited))

/-- Starts to deliver a decision; the time at which it is on its way. -/
def sendDecision (message : DecisionMessage) (participants : List ProcessId) (time : Duration) :
    Action interface σ ε Instant :=
  Action.ask (I := interface) (.inr (.sendDecision message participants time))

/-- Waits for an acknowledgement. -/
def awaitAcknowledgement (message : DecisionMessage) (awaited : List ProcessId) :
    Action interface σ ε (Option (Reply awaited Unit)) :=
  Action.ask (I := interface) (.inr (.awaitAcknowledgement message awaited))

/-- Lets time pass. -/
def pause (time : Duration) : Action interface σ ε Unit :=
  Action.ask (I := interface) (.inr (.pause time))

/-! ## The programs of these actions -/

@[simp] theorem program_freshId (memory : σ) :
    (freshId : Action interface σ ε _).program memory =
      .ask (I := interface.sharing σ) (.inr .freshId, memory) fun reply =>
        .done (.ok reply.1, reply.2) := rfl

@[simp] theorem program_within (time : Duration) (now : Instant) (memory : σ) :
    (within time now : Action interface σ ε Unit).program memory =
      if (now.add? time).isSome then .done (.ok (), memory)
      else .ask (I := interface.sharing σ) (.inr .panic, memory) fun never => nomatch never.1 := by
  rw [within]
  cases now.add? time with
  | some _ => rfl
  | none =>
    show Program.ask _ _ = Program.ask _ _
    congr 1
    funext never
    exact never.1.elim

@[simp] theorem program_requestVotes (resuming : Bool)
    (messages : List (ProcessId × PrepareMessage)) (time : Duration) (memory : σ) :
    (requestVotes resuming messages time : Action interface σ ε _).program memory =
      .ask (I := interface.sharing σ) (.inr (.requestVotes resuming messages time), memory)
        fun reply => .done (.ok reply.1, reply.2) := rfl

@[simp] theorem program_awaitVote (transaction : TransactionId) (awaited : List ProcessId)
    (memory : σ) :
    (awaitVote transaction awaited : Action interface σ ε _).program memory =
      .ask (I := interface.sharing σ) (.inr (.awaitVote transaction awaited), memory) fun reply =>
        .done (.ok reply.1, reply.2) := rfl

@[simp] theorem program_sendDecision (message : DecisionMessage) (participants : List ProcessId)
    (time : Duration) (memory : σ) :
    (sendDecision message participants time : Action interface σ ε _).program memory =
      .ask (I := interface.sharing σ) (.inr (.sendDecision message participants time), memory)
        fun reply => .done (.ok reply.1, reply.2) := rfl

@[simp] theorem program_awaitAcknowledgement (message : DecisionMessage)
    (awaited : List ProcessId) (memory : σ) :
    (awaitAcknowledgement message awaited : Action interface σ ε _).program memory =
      .ask (I := interface.sharing σ) (.inr (.awaitAcknowledgement message awaited), memory)
        fun reply => .done (.ok reply.1, reply.2) := rfl

@[simp] theorem program_pause (time : Duration) (memory : σ) :
    (pause time : Action interface σ ε _).program memory =
      .ask (I := interface.sharing σ) (.inr (.pause time), memory) fun reply =>
        .done (.ok reply.1, reply.2) := rfl

end AtomicCommit.Coordinator

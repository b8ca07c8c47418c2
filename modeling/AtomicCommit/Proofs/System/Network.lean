import AtomicCommit.Proofs.Coordinator.Run
import AtomicCommit.Proofs.Participant.Run
import Mathlib.Logic.Relation

/-!
# A system of processes

One coordinator and its participants, each a process with a log of its own, joined by a network. The
network invents nothing: every call that it delivers has been made, and every reply that it delivers
has been given. Beyond that it may do anything: deliver late, in any order, more than once or not at
all, and report a failure whenever it likes.

## Main definitions

* `System`, `System.Step`, `System.Reachable`: the system and its runs.
* `System.Calls`, `System.Replies`: the calls that have been made, and the replies given.
-/

namespace AtomicCommit

namespace Program

variable {I : Interface} {α : Type}

/-- A program comes to ask a question if it is answered so. -/
inductive Reaches (answers : (q : I.Request) → I.Answer q → Prop) :
    Program I α → I.Request → Prop where
  /-- It asks at once. -/
  | here {q : I.Request} {next : I.Answer q → Program I α} : Reaches answers (.ask q next) q
  /-- It asks after an answer. -/
  | later {q q' : I.Request} {next : I.Answer q → Program I α} {a : I.Answer q} (h : answers q a)
      (h' : Reaches answers (next a) q') : Reaches answers (.ask q next) q'

/-- A program comes to a result if it is answered so. -/
inductive Yields (answers : (q : I.Request) → I.Answer q → Prop) :
    Program I α → α → Prop where
  /-- It is done. -/
  | done {a : α} : Yields answers (.done a) a
  /-- It goes on after an answer. -/
  | later {q : I.Request} {next : I.Answer q → Program I α} {a : I.Answer q} {b : α}
      (h : answers q a) (h' : Yields answers (next a) b) : Yields answers (.ask q next) b

end Program

/-- A coordinator and its participants. -/
structure System (c : Coordinator) where
  /-- The coordinator. -/
  coordinator : Node c.role := {}
  /-- The participant of each name. -/
  participants : (p : ProcessId) → Node (Participant.role p) := fun _ => {}

namespace System

variable {c : Coordinator} (s : System c)

/-! ## The network -/

/-- What may come of a call: the reply that the process called has given to such a call, or a
failure. -/
inductive Replies : (q : Addressed) → Except TransportError q.call.Reply → Prop where
  /-- The call fails, or the reply is lost. -/
  | failure (q : Addressed) (failure : TransportError) : Replies q (.error failure)
  /-- A participant has voted. -/
  | prepare {p : ProcessId} {message : PrepareMessage} {vote : Vote} {call : ℕ} {log : List Entry}
      (h : ⟨call, .returned (.handlePrepare message) (.ok vote), log⟩ ∈ (s.participants p).past) :
      Replies ⟨p, .prepare message⟩ (.ok vote)
  /-- A participant has applied a decision. -/
  | decision {p : ProcessId} {message : DecisionMessage} {call : ℕ} {log : List Entry}
      (h : ⟨call, .returned (.handleDecision message.transaction message.decision) (.ok ()), log⟩ ∈
        (s.participants p).past) : Replies ⟨p, .decision message⟩ (.ok ())
  /-- A participant has told its vote. -/
  | queryVote {p : ProcessId} {tx : TransactionId} {vote : Option Vote} {call : ℕ}
      {log : List Entry}
      (h : ⟨call, .returned (.queryVote tx) (.ok vote), log⟩ ∈ (s.participants p).past) :
      Replies ⟨p, .queryVote tx⟩ (.ok vote)
  /-- The coordinator has told its decision. -/
  | queryDecision {tx : TransactionId} {answer : Option Decision} {call : ℕ} {log : List Entry}
      (h : ⟨call, .returned (.queryDecision tx) (.ok answer), log⟩ ∈ s.coordinator.past) :
      Replies ⟨c.id, .queryDecision tx⟩ (.ok answer)

/-- The calls that have been made. -/
inductive Calls : Addressed → Prop where
  /-- The coordinator asks for a vote. -/
  | ballot {resuming : Bool} {p : ProcessId} {message : PrepareMessage} {q : Addressed}
      (requested : c.Requests s.coordinator.past resuming p message)
      (reached : (Transport.ballot resuming p message).run.Reaches s.Replies q) : Calls q
  /-- The coordinator tells the decision. -/
  | decision {p : ProcessId} {message : DecisionMessage}
      (sent : c.Sends s.coordinator.past p message) : Calls ⟨p, .decision message⟩
  /-- A participant that recovers asks for the decision. -/
  | queryDecision {p coordinator : ProcessId} {tx : TransactionId} {call : ℕ} {log : List Entry}
      (asked : ⟨call, .asked (.inr (.askDecision coordinator tx)), log⟩ ∈ (s.participants p).past) :
      Calls ⟨coordinator, .queryDecision tx⟩

/-! ## Steps -/

/-- What may happen at the coordinator. -/
structure CoordinatorAllows {c : Coordinator} (s : System c) (op : Coordinator.Operation)
    (m : Moment c.role) : Prop extends c.Allows s.coordinator op m where
  /-- The decision is asked for by a call. -/
  called : ∀ tx, m.event = .started (.queryDecision tx) → s.Calls ⟨c.id, .queryDecision tx⟩
  /-- A vote, or a failure, is what has come of asking for it. -/
  vote : ∀ tx awaited, ∀ reply : Reply awaited Vote,
    m.event = .answered (.inr (.awaitVote tx awaited)) (some reply) →
      ∃ resuming message, c.Requests s.coordinator.past resuming reply.sender message ∧
        message.transaction = tx ∧
          (Transport.ballot resuming reply.sender message).run.Yields s.Replies reply.result
  /-- An acknowledgement, or a failure, is what has come of telling the decision. -/
  acknowledgement : ∀ message awaited, ∀ reply : Reply awaited Unit,
    m.event = .answered (.inr (.awaitAcknowledgement message awaited)) (some reply) →
      c.Sends s.coordinator.past reply.sender message ∧
        s.Replies ⟨reply.sender, .decision message⟩ reply.result

/-- What may happen at a participant. -/
structure ParticipantAllows {c : Coordinator} (s : System c) (p : ProcessId)
    (op : Participant.Operation) (m : Moment (Participant.role p)) : Prop extends
    Participant.Allows p (s.participants p) op m where
  /-- A vote is asked for by a call. -/
  prepare : ∀ message, m.event = .started (.handlePrepare message) → s.Calls ⟨p, .prepare message⟩
  /-- A decision is told by a call. -/
  decision : ∀ tx d, m.event = .started (.handleDecision tx d) → s.Calls ⟨p, .decision ⟨tx, d⟩⟩
  /-- The vote logged is asked for by a call. -/
  queryVote : ∀ tx, m.event = .started (.queryVote tx) → s.Calls ⟨p, .queryVote tx⟩
  /-- A decision asked for is what has come of asking. -/
  told : ∀ coordinator tx result,
    m.event = .answered (.inr (.askDecision coordinator tx)) result →
      s.Replies ⟨coordinator, .queryDecision tx⟩ result

/-- What may happen to a system: something happens to one of its processes. -/
inductive Step : System c → Prop where
  /-- To the coordinator. -/
  | coordinator {n : Node c.role} (step : s.coordinator.Step s.CoordinatorAllows n) :
      Step { s with coordinator := n }
  /-- To a participant. -/
  | participant {p : ProcessId} {n : Node (Participant.role p)}
      (step : (s.participants p).Step (s.ParticipantAllows p) n) :
      Step { s with participants := Function.update s.participants p n }

/-- What one state of a system may lead to. -/
abbrev Leads (s s' : System c) : Prop := Relation.ReflTransGen Step s s'

/-- What a run may lead to from empty logs. -/
def Reachable : Prop := Leads {} s

end System

end AtomicCommit

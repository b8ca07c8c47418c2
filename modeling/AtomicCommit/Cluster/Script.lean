import AtomicCommit.Transport.Call

/-!
# Scripts for calls

What becomes of a call can be ordered in advance: it is delivered, delivered without its reply
getting back, lost, answered by a reply made up, or held until later.
-/

namespace AtomicCommit

/-- The kinds of calls. -/
inductive CallKind where
  /-- See `Call.prepare`. -/
  | prepare
  /-- See `Call.decision`. -/
  | decision
  /-- See `Call.queryVote`. -/
  | queryVote
  /-- See `Call.queryDecision`. -/
  | queryDecision
deriving DecidableEq, Inhabited

/-- The kind of a call. -/
def Call.kind : Call → CallKind
  | prepare _ => .prepare
  | decision _ => .decision
  | queryVote _ => .queryVote
  | queryDecision _ => .queryDecision

namespace Cluster

/-- A reply that is made up. -/
inductive MadeReply where
  /-- A vote to commit. -/
  | yes
  /-- A vote to abort. -/
  | no
  /-- No vote logged. -/
  | none
  /-- A decision acknowledged. -/
  | ack
  /-- No decision yet. -/
  | undecided
  /-- A decision to commit. -/
  | commit
  /-- A decision to abort. -/
  | abort
deriving DecidableEq, Inhabited

namespace MadeReply

/-- The word for a reply. -/
def word : MadeReply → String
  | yes => "yes"
  | no => "no"
  | none => "none"
  | ack => "ack"
  | undecided => "undecided"
  | commit => "commit"
  | abort => "abort"

/-- The reply to a call, if it fits the call. -/
def for? : MadeReply → (call : Call) → Option call.Reply
  | yes, .prepare _ => some Vote.yes
  | no, .prepare _ => some Vote.no
  | yes, .queryVote _ => some (some Vote.yes)
  | no, .queryVote _ => some (some Vote.no)
  | none, .queryVote _ => some Option.none
  | ack, .decision _ => some ()
  | undecided, .queryDecision _ => some Option.none
  | commit, .queryDecision _ => some (some Decision.commit)
  | abort, .queryDecision _ => some (some Decision.abort)
  | _, _ => Option.none

/-- The reply to a call; one that does not fit is a failure of the transport. -/
def reply (made : MadeReply) (call : Call) : Except TransportError call.Reply :=
  match made.for? call with
  | some reply => .ok reply
  | Option.none => .error (.internal ("no reply " ++ made.word))

end MadeReply

/-- What becomes of a call. -/
inductive Directive where
  /-- It is delivered. -/
  | deliver
  /-- It is not delivered. -/
  | drop
  /-- It is delivered, its reply is not. -/
  | lose
  /-- It is not delivered, and the called process seems to fail. -/
  | remote
  /-- It is not delivered, and the transport seems to fail. -/
  | internal
  /-- It is neither delivered nor answered until it is released. -/
  | hold
  /-- It is not delivered, and is answered all the same. -/
  | made (reply : MadeReply)
deriving DecidableEq, Inhabited

/-- The directives for calls to one process, in order. -/
abbrev Script := List (CallKind × Directive)

namespace Script

/-- The next directive for a kind of call, and the script without it; calls without a directive are
delivered. -/
def next (kind : CallKind) : Script → Directive × Script
  | [] => (.deliver, [])
  | (kind', directive) :: rest =>
    if kind' = kind then (directive, rest)
    else
      let (found, rest) := next kind rest
      (found, (kind', directive) :: rest)

end Script

end Cluster

end AtomicCommit

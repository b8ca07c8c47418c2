/-!
# Votes, decisions and outcomes

Participants vote, the coordinator decides, and the decision gives the outcome of a transaction.
`Decision.ofVotes` is the rule: one refusal aborts, and a commit needs every vote.
-/

namespace AtomicCommit

/-- What a participant answers to PREPARE. A `yes` binds it to a later commit. -/
inductive Vote where
  /-- The participant has prepared durably. -/
  | yes
  /-- The participant refuses. -/
  | no
deriving DecidableEq, Inhabited

/-- What the coordinator makes of a transaction, once and for all. -/
inductive Decision where
  /-- Every participant commits. -/
  | commit
  /-- Every participant aborts. -/
  | abort
deriving DecidableEq, Inhabited

/-- How a transaction ended. -/
inductive Outcome where
  /-- The transaction took effect. -/
  | committed
  /-- The transaction left no effect. -/
  | aborted
deriving DecidableEq, Inhabited

namespace Vote

/-- All votes, in the order of declaration. -/
def all : List Vote := [.yes, .no]

/-- The word that stands for a vote in records and messages. -/
def word : Vote → String
  | .yes => "YES"
  | .no => "NO"

/-- The name of a vote inside the text of an error. -/
def inspect : Vote → String
  | .yes => "Yes"
  | .no => "No"

end Vote

namespace Decision

/-- All decisions, in the order of declaration. -/
def all : List Decision := [.commit, .abort]

/-- The word that stands for a decision, also in messages to people. -/
def word : Decision → String
  | .commit => "COMMIT"
  | .abort => "ABORT"

/-- The name of a decision inside the text of an error. -/
def inspect : Decision → String
  | .commit => "Commit"
  | .abort => "Abort"

instance : ToString Decision := ⟨word⟩

/-- The outcome of a transaction so decided. -/
def outcome : Decision → Outcome
  | .commit => .committed
  | .abort => .aborted

/-- The decision that votes determine when `expected` are awaited: abort from the first refusal
on, commit with as many assents as are awaited, and nothing before. -/
def ofVotes (votes : List Vote) (expected : Nat) : Option Decision :=
  if votes.contains .no then some .abort
  else if votes.length = expected then some .commit
  else none

end Decision

namespace Outcome

/-- All outcomes, in the order of declaration. -/
def all : List Outcome := [.committed, .aborted]

/-- The word that stands for an outcome. -/
def word : Outcome → String
  | .committed => "COMMITTED"
  | .aborted => "ABORTED"

end Outcome

end AtomicCommit

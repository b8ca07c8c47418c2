import AtomicCommit.Protocol.Vote

/-!
# States of a transaction

A coordinator and a participant each take a transaction through states of their own; a log entry
records a state of either. The steps allowed are

* for a coordinator `init → preparing → committing or aborting → done`,
* for a participant `idle → prepared → committed or aborted`, and `idle → aborted`.
-/

namespace AtomicCommit

/-- The state of a transaction at its coordinator. -/
inductive CoordinatorState where
  /-- The transaction is logged, nobody has been asked. -/
  | init
  /-- Votes are being collected. -/
  | preparing
  /-- Commit is decided and being delivered. -/
  | committing
  /-- Abort is decided and being delivered. -/
  | aborting
  /-- Every participant has acknowledged the decision. -/
  | done
deriving DecidableEq, Inhabited

/-- The state of a transaction at a participant. -/
inductive ParticipantState where
  /-- The participant has logged nothing. -/
  | idle
  /-- The participant has voted to commit and awaits the decision. -/
  | prepared
  /-- The transaction took effect here. -/
  | committed
  /-- The transaction has no effect here. -/
  | aborted
deriving DecidableEq, Inhabited

/-- A state of either role, as entries record it. -/
inductive State where
  /-- See `CoordinatorState.init`. -/
  | init
  /-- See `CoordinatorState.preparing`. -/
  | preparing
  /-- See `CoordinatorState.committing`. -/
  | committing
  /-- See `CoordinatorState.aborting`. -/
  | aborting
  /-- See `CoordinatorState.done`. -/
  | done
  /-- See `ParticipantState.idle`. -/
  | idle
  /-- See `ParticipantState.prepared`. -/
  | prepared
  /-- See `ParticipantState.committed`. -/
  | committed
  /-- See `ParticipantState.aborted`. -/
  | aborted
deriving DecidableEq, Inhabited

namespace State

/-- All states, in the order of declaration. -/
def all : List State :=
  [.init, .preparing, .committing, .aborting, .done, .idle, .prepared, .committed, .aborted]

/-- The word that stands for a state in records. -/
def word : State → String
  | .init => "INIT"
  | .preparing => "PREPARING"
  | .committing => "COMMITTING"
  | .aborting => "ABORTING"
  | .done => "DONE"
  | .idle => "IDLE"
  | .prepared => "PREPARED"
  | .committed => "COMMITTED"
  | .aborted => "ABORTED"

/-- The name of a state inside the text of an error. -/
def inspect : State → String
  | .init => "Init"
  | .preparing => "Preparing"
  | .committing => "Committing"
  | .aborting => "Aborting"
  | .done => "Done"
  | .idle => "Idle"
  | .prepared => "Prepared"
  | .committed => "Committed"
  | .aborted => "Aborted"

/-- The state before an entry, inside the text of an error. -/
def inspect? : Option State → String
  | none => "None"
  | some s => "Some(" ++ s.inspect ++ ")"

/-- Whether no further entry follows for a transaction in this state. -/
def isTerminal : State → Bool
  | .done | .committed | .aborted => true
  | _ => false

/-- The coordinator's state of that name. -/
def coordinator? : State → Option CoordinatorState
  | .init => some .init
  | .preparing => some .preparing
  | .committing => some .committing
  | .aborting => some .aborting
  | .done => some .done
  | _ => none

/-- The participant's state of that name. -/
def participant? : State → Option ParticipantState
  | .idle => some .idle
  | .prepared => some .prepared
  | .committed => some .committed
  | .aborted => some .aborted
  | _ => none

end State

namespace CoordinatorState

/-- All states, in the order of declaration. -/
def all : List CoordinatorState := [.init, .preparing, .committing, .aborting, .done]

/-- The state as entries record it. -/
def toState : CoordinatorState → State
  | .init => .init
  | .preparing => .preparing
  | .committing => .committing
  | .aborting => .aborting
  | .done => .done

/-- The name of a state inside the text of an error. -/
def inspect (s : CoordinatorState) : String := s.toState.inspect

/-- Whether the coordinator is through with the transaction. -/
def isTerminal (s : CoordinatorState) : Bool := s = .done

/-- Whether a single step leads from one state to the other. -/
def canMoveTo : CoordinatorState → CoordinatorState → Bool
  | .init, .preparing => true
  | .preparing, .committing => true
  | .preparing, .aborting => true
  | .committing, .done => true
  | .aborting, .done => true
  | _, _ => false

/-- The states one step away, in the order of declaration. -/
def next (s : CoordinatorState) : List CoordinatorState := all.filter s.canMoveTo

/-- The state entered by a decision. -/
def deciding : Decision → CoordinatorState
  | .commit => .committing
  | .abort => .aborting

@[simp] theorem coordinator?_toState (s : CoordinatorState) : s.toState.coordinator? = some s := by
  cases s <;> rfl

end CoordinatorState

namespace ParticipantState

/-- All states, in the order of declaration. -/
def all : List ParticipantState := [.idle, .prepared, .committed, .aborted]

/-- The state as entries record it. -/
def toState : ParticipantState → State
  | .idle => .idle
  | .prepared => .prepared
  | .committed => .committed
  | .aborted => .aborted

/-- The name of a state inside the text of an error. -/
def inspect (s : ParticipantState) : String := s.toState.inspect

/-- Whether the transaction is resolved here. -/
def isTerminal : ParticipantState → Bool
  | .committed | .aborted => true
  | _ => false

/-- Whether a single step leads from one state to the other. -/
def canMoveTo : ParticipantState → ParticipantState → Bool
  | .idle, .prepared => true
  | .idle, .aborted => true
  | .prepared, .committed => true
  | .prepared, .aborted => true
  | _, _ => false

/-- The states one step away, in the order of declaration. -/
def next (s : ParticipantState) : List ParticipantState := all.filter s.canMoveTo

/-- The state reached by applying a decision. -/
def resolved : Decision → ParticipantState
  | .commit => .committed
  | .abort => .aborted

@[simp] theorem participant?_toState (s : ParticipantState) : s.toState.participant? = some s := by
  cases s <;> rfl

end ParticipantState

end AtomicCommit

import AtomicCommit.Error.State

/-!
# The states of a role

An entry may record a state of either role. Whoever replays entries takes the states of its own
role only.
-/

namespace AtomicCommit

/-- The coordinator's state that an entry records. -/
def CoordinatorState.ofState (s : State) : Except StateError CoordinatorState :=
  match s.coordinator? with
  | some c => .ok c
  | none => .error (.notCoordinatorState s)

/-- The participant's state that an entry records. -/
def ParticipantState.ofState (s : State) : Except StateError ParticipantState :=
  match s.participant? with
  | some p => .ok p
  | none => .error (.notParticipantState s)

end AtomicCommit

import AtomicCommit.Log.Inspect
import AtomicCommit.Time.Duration

/-!
# What contradicts the state of things

`StateError` lists why a step, a history, a configuration or an identifier is refused; its
`message` is the only place where the words are chosen.
-/

namespace AtomicCommit

/-- Why something does not fit the state it meets. -/
inductive StateError where
  /-- A text is no transaction identifier. -/
  | invalidId (text : String)
  /-- A coordinator has no such state. -/
  | notCoordinatorState (state : State)
  /-- A participant has no such state. -/
  | notParticipantState (state : State)
  /-- The time to wait for votes is zero. -/
  | zeroPrepareTimeout
  /-- The time to wait for acknowledgements is zero. -/
  | zeroAckTimeout
  /-- No delivery attempt is allowed. -/
  | noAttempts
  /-- The first pause is longer than the longest one. -/
  | backoffOrder (initial max : Duration)
  /-- There is nothing to replay. -/
  | emptyHistory
  /-- The first entry of a transaction does not create it. -/
  | missingBegin (transaction : TransactionId)
  /-- An entry is about another transaction. -/
  | otherTransaction (entry transaction : TransactionId)
  /-- An entry starts from another state. -/
  | staleState (transaction : TransactionId) (state : CoordinatorState) (expected : Option State)
  /-- A vote comes when none is collected. -/
  | voteOutsidePhase (transaction : TransactionId)
  /-- A process takes no part in the transaction. -/
  | stranger (process : ProcessId) (transaction : TransactionId)
  /-- A participant has voted otherwise. -/
  | voteChanged (process : ProcessId) (recorded : Vote) (transaction : TransactionId) (vote : Vote)
  /-- The transaction is decided. -/
  | alreadyDecided (transaction : TransactionId) (decision : Decision)
  /-- A decision does not lead from one state to the other. -/
  | decisionMove (decision : Decision) (transaction : TransactionId) (state next : CoordinatorState)
  /-- A commit lacks votes. -/
  | commitWithoutVotes (transaction : TransactionId)
  /-- An acknowledgement comes when none is collected. -/
  | acknowledgedOutsidePhase (transaction : TransactionId)
  /-- No step without data leads from one state to the other. -/
  | plainMove (transaction : TransactionId) (state next : CoordinatorState)
  /-- A transaction is to be done without all acknowledgements. -/
  | notAcknowledged (transaction : TransactionId)
  /-- A coordinator does not write such data. -/
  | unexpectedPayload (payload : Payload)
  /-- The first entry of a participant has other data than any history starts with. -/
  | historyStart (transaction : TransactionId) (payload : Payload)
  /-- An entry does not continue a participant's history. -/
  | notFollowing (previous : Option State) (next : State) (transaction : TransactionId)
      (state : ParticipantState)
  /-- No step of a participant leads from one state to the other. -/
  | participantMove (transaction : TransactionId) (state next : ParticipantState)
  /-- The data of an entry does not belong to the state it leads to. -/
  | payloadMove (payload : Payload) (next : ParticipantState)
  /-- A decision comes to a participant that is past it. -/
  | notApplicable (transaction : TransactionId) (state : ParticipantState) (process : ProcessId)
      (decision : Decision)
  /-- A prepared record has no payload. -/
  | missingPayload (transaction : TransactionId)
  /-- A coordinator is not through with the transaction it is to forget. -/
  | unfinishedTransaction (transaction : TransactionId) (state : CoordinatorState)
  /-- A participant is not through with the transaction it is to forget. -/
  | unfinishedRecord (transaction : TransactionId) (state : ParticipantState) (process : ProcessId)
  /-- A prepared record names no coordinator. -/
  | missingCoordinator (transaction : TransactionId)
  /-- Another reason, in its own words. -/
  | reported (text : String)
deriving DecidableEq

namespace StateError

/-- The text of an error. -/
def message : StateError → String
  | invalidId text => s!"invalid transaction id {Text.quoted text}"
  | notCoordinatorState s => s!"invalid state for coordinator: {s.inspect}"
  | notParticipantState s => s!"invalid state for participant: {s.inspect}"
  | zeroPrepareTimeout => "prepare_timeout must be greater than zero"
  | zeroAckTimeout => "ack_timeout must be greater than zero"
  | noAttempts => "at least one delivery attempt is required"
  | backoffOrder initial max => s!"initial_backoff {initial} exceeds max_backoff {max}"
  | emptyHistory => "no log entries to replay"
  | missingBegin tx => s!"transaction {tx} does not start with a begin entry"
  | otherTransaction entry tx => s!"entry for transaction {entry} applied to transaction {tx}"
  | staleState tx s expected =>
    s!"transaction {tx} is {s.inspect}, entry expects {State.inspect? expected}"
  | voteOutsidePhase tx => s!"vote for transaction {tx} outside of the prepare phase"
  | stranger p tx => s!"{p} is not a participant of transaction {tx}"
  | voteChanged p recorded tx vote =>
    s!"{p} already voted {recorded.inspect} on transaction {tx}, can not change to {vote.inspect}"
  | alreadyDecided tx decision => s!"transaction {tx} already decided {decision}"
  | decisionMove decision tx s next =>
    s!"decision {decision} for transaction {tx} can not move {s.inspect} to {next.inspect}"
  | commitWithoutVotes tx =>
    s!"transaction {tx} can not commit without a YES vote from every participant"
  | acknowledgedOutsidePhase tx =>
    s!"acknowledgement for transaction {tx} outside of the decision phase"
  | plainMove tx s next =>
    s!"transaction {tx} can not move from {s.inspect} to {next.inspect}"
  | notAcknowledged tx => s!"transaction {tx} is not acknowledged by every participant"
  | unexpectedPayload payload => s!"unexpected coordinator log payload {payload.inspect}"
  | historyStart tx payload =>
    s!"participant history for transaction {tx} starts with {payload.inspect}"
  | notFollowing previous next tx s =>
    let step := State.inspect? previous ++ " -> " ++ next.inspect
    s!"entry {step} for transaction {tx} does not follow {s.inspect}"
  | participantMove tx s next =>
    s!"participant can not move transaction {tx} from {s.inspect} to {next.inspect}"
  | payloadMove payload next => s!"payload {payload.inspect} does not lead to {next.inspect}"
  | notApplicable tx s p decision =>
    s!"transaction {tx} is {s.inspect} on {p}, can not apply {decision}"
  | missingPayload tx => s!"transaction {tx} is prepared without a payload"
  | unfinishedTransaction tx s => s!"transaction {tx} is {s.inspect} and can not be forgotten"
  | unfinishedRecord tx s p =>
    s!"transaction {tx} is {s.inspect} on {p} and can not be forgotten"
  | missingCoordinator tx => s!"prepared transaction {tx} has no coordinator"
  | reported text => text

end StateError

end AtomicCommit

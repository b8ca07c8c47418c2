import AtomicCommit.Error.State

/-!
# Errors of the log, the transport and the protocol

Each error has a message, and a trail: the messages of the errors it was made from, the nearest
first.
-/

namespace AtomicCommit

/-- A failure outside the protocol. -/
inductive Fault where
  /-- A failure described in words. -/
  | reported (text : String)
  /-- A failure passed on from the operating system. -/
  | system (text : String)
deriving DecidableEq

/-- What is wrong with stored entries. -/
inductive Corruption where
  /-- The frame at the offset does not have the checksum it states. -/
  | checksum (offset : Nat)
  /-- The frame at the offset holds no entry. -/
  | undecodable (offset : Nat)
  /-- Another damage, in its own words. -/
  | reported (text : String)
deriving DecidableEq

/-- Why a log did not do what it was asked. -/
inductive LogError where
  /-- The store could not read or durably write. -/
  | unavailable (cause : Fault)
  /-- The stored entries can not be trusted. -/
  | corrupt (cause : Corruption)
deriving DecidableEq

/-- Why a request was refused. -/
inductive RequestError where
  /-- The transaction has no participants. -/
  | noParticipants
  /-- Operations are meant for a process that does not take part. -/
  | stranger (process : ProcessId)
  /-- The deadline can not be represented. -/
  | timeoutRange (timeout : Duration)
  /-- Another reason, in its own words. -/
  | reported (text : String)
deriving DecidableEq

/-- Why a step of the protocol failed. -/
inductive CommitError where
  /-- The request is malformed. -/
  | invalidRequest (cause : RequestError)
  /-- The step contradicts the state of the transaction. -/
  | invalidState (cause : StateError)
  /-- The step could not be made durable, and has not happened. -/
  | log (cause : LogError)
  /-- The resource manager failed. -/
  | internal (cause : Fault)
deriving DecidableEq

/-- Why a message did not get its answer. -/
inductive TransportError where
  /-- The process could not be reached. -/
  | unreachable (process : ProcessId)
  /-- The process could not handle the message. -/
  | remote (process : ProcessId) (text : String)
  /-- The transport itself failed. -/
  | internal (text : String)
deriving DecidableEq

/-- Why a process could not recover. -/
inductive RecoveryError where
  /-- The log could not be read or written. -/
  | log (cause : LogError)
  /-- The log describes an impossible history. -/
  | inconsistent (cause : StateError)
  /-- A recovered step failed in another way. -/
  | commit (cause : CommitError)
deriving DecidableEq

namespace Fault

/-- The text of a failure. -/
def message : Fault → String
  | reported text | system text => text

/-- The messages of the errors behind it. -/
def trail : Fault → List String
  | reported _ => []
  | system text => [text]

end Fault

/-- The text of a damage. -/
def Corruption.message : Corruption → String
  | checksum offset => s!"checksum mismatch in frame at offset {offset}"
  | undecodable offset => s!"undecodable frame at offset {offset}"
  | reported text => text

namespace LogError

/-- The text of an error. -/
def message : LogError → String
  | unavailable cause => s!"transaction log failure: {cause.message}"
  | corrupt cause => s!"transaction log corrupt: {cause.message}"

/-- The messages of the errors behind it. -/
def trail : LogError → List String
  | unavailable cause => cause.message :: cause.trail
  | corrupt cause => [cause.message]

end LogError

/-- The text of a refusal. -/
def RequestError.message : RequestError → String
  | noParticipants => "a transaction requires at least one participant"
  | stranger p => s!"operations addressed to {p}, which is not a participant"
  | timeoutRange d => s!"timeout {d} is out of range"
  | reported text => text

namespace CommitError

/-- The text of an error. -/
def message : CommitError → String
  | invalidRequest cause => s!"invalid request: {cause.message}"
  | invalidState cause => cause.message
  | log cause => cause.message
  | internal cause => cause.message

/-- The messages of the errors behind it. -/
def trail : CommitError → List String
  | invalidRequest _ => []
  | invalidState cause => [cause.message]
  | log cause => cause.message :: cause.trail
  | internal cause => cause.message :: cause.trail

end CommitError

/-- The text of an error. -/
def TransportError.message : TransportError → String
  | unreachable p => s!"{p} is unreachable"
  | remote p text => s!"{p} failed to handle message: {text}"
  | internal text => s!"transport failure: {text}"

namespace RecoveryError

/-- The text of an error. -/
def message : RecoveryError → String
  | log cause => s!"recovery failed: {cause.message}"
  | inconsistent cause => s!"recovery failed: {cause.message}"
  | commit cause => s!"recovery failed: {cause.message}"

/-- The messages of the errors behind it. -/
def trail : RecoveryError → List String
  | log cause => cause.message :: cause.trail
  | inconsistent cause => [cause.message]
  | commit cause => cause.message :: cause.trail

/-- What a failed step means for recovery: errors of the log and contradictions stay what they
are. -/
def ofCommit : CommitError → RecoveryError
  | .log cause => log cause
  | .invalidState cause => inconsistent cause
  | cause => commit cause

end RecoveryError

end AtomicCommit

import AtomicCommit.Cluster.Basic

/-!
# Commands to a cluster

What can be ordered of a cluster, what it answers, and what can be wrong.
-/

namespace AtomicCommit.Cluster

/-- An order to a cluster. -/
inductive Command where
  /-- Sets the clock. -/
  | setClock (time : Timestamp)
  /-- Starts a participant, which can be called if `register`. -/
  | startParticipant (id : ProcessId) (log : String) (register plain : Bool) (failures : Failures)
  /-- Starts a coordinator, which can be called if `register`. -/
  | startCoordinator (id : ProcessId) (log : String) (options : Config.Options) (register : Bool)
  /-- Stops a coordinator. -/
  | stopCoordinator (id : ProcessId)
  /-- Has a coordinator run a transaction; without a timeout it has five seconds. -/
  | begin (coordinator : ProcessId) (participants : List ProcessId) (operations : Assignment)
      (timeout : Option Duration)
  /-- What a coordinator knows of a transaction. -/
  | queryState (coordinator : ProcessId) (transaction : TransactionId)
  /-- What a coordinator has decided. -/
  | queryDecision (coordinator : ProcessId) (transaction : TransactionId)
  /-- Has a coordinator forget a transaction. -/
  | forgetTransaction (coordinator : ProcessId) (transaction : TransactionId)
  /-- Has a coordinator recover. -/
  | recoverCoordinator (coordinator : ProcessId)
  /-- Has a participant vote. -/
  | prepare (participant : ProcessId) (message : PrepareMessage)
  /-- Has a participant apply a decision. -/
  | decision (participant : ProcessId) (message : DecisionMessage)
  /-- What a participant has voted. -/
  | queryVote (participant : ProcessId) (transaction : TransactionId)
  /-- The state of a transaction at a participant. -/
  | participantState (participant : ProcessId) (transaction : TransactionId)
  /-- What a participant knows of a transaction. -/
  | record (participant : ProcessId) (transaction : TransactionId)
  /-- The transactions that a participant can not resolve. -/
  | blocked (participant : ProcessId)
  /-- Has a participant forget a transaction. -/
  | forgetRecord (participant : ProcessId) (transaction : TransactionId)
  /-- Has a participant recover. -/
  | recoverParticipant (participant : ProcessId)
  /-- Calls a process past all scripts. -/
  | send (target : ProcessId) (call : Call)
  /-- Cuts a process off. -/
  | partition (process : ProcessId)
  /-- Connects a process again. -/
  | heal (process : ProcessId)
  /-- Lets calls to a process take a while, or no longer. -/
  | delay (process : ProcessId)
  /-- Lets a participant be called. -/
  | registerParticipant (participant : ProcessId)
  /-- Lets a coordinator be called. -/
  | registerCoordinator (coordinator : ProcessId)
  /-- Lets a participant be called no longer. -/
  | deregisterParticipant (participant : ProcessId)
  /-- Lets a coordinator be called no longer. -/
  | deregisterCoordinator (coordinator : ProcessId)
  /-- Names the processes to be called first. -/
  | order (participants : List ProcessId)
  /-- Orders what becomes of calls to a process. -/
  | script (target : ProcessId) (kind : CallKind) (directives : List Directive)
  /-- Lets held calls go, delivered or not. -/
  | release (delivering : Bool)
  /-- Makes a log. -/
  | createLog (log : String) (medium : Medium)
  /-- Opens the file of a log again. -/
  | reopen (log : String)
  /-- Appends to a log. -/
  | append (log : String) (entry : Entry)
  /-- The entries of a transaction in a log. -/
  | load (log : String) (transaction : TransactionId)
  /-- The entries of an actor's unfinished transactions in a log. -/
  | scan (log : String) (actor : ProcessId)
  /-- All entries of a log. -/
  | entries (log : String)
  /-- The number of entries of a log. -/
  | size (log : String)
  /-- The bytes of the file of a log. -/
  | bytes (log : String)
  /-- Puts other bytes into the file of a log. -/
  | setBytes (log : String) (bytes : List UInt8)
  /-- Cuts bytes off the file of a log. -/
  | cut (log : String) (count : Nat)
  /-- Changes the bits of a mask in one byte of the file of a log. -/
  | flip (log : String) (offset : Nat) (mask : UInt8)
  /-- Orders faults of appends. -/
  | appendFaults (log : String) (faults : List AppendFault)
  /-- Orders which loads fail. -/
  | loadFaults (log : String) (fails : List Bool)
  /-- Orders which scans fail. -/
  | scanFaults (log : String) (fails : List Bool)
  /-- Limits the length of the file of a log, or lifts the limit. -/
  | limit (log : String) (bytes : Option Nat)

/-- What a cluster answers. -/
inductive Answer where
  /-- The command is carried out. -/
  | nothing
  /-- Whether there was anything to do. -/
  | flag (value : Bool)
  /-- The name of a process, if there is one. -/
  | process (id : Option ProcessId)
  /-- A coordinator that has been started. -/
  | coordinator (process : Coordinator)
  /-- How a transaction ended. -/
  | outcome (outcome : CommitOutcome)
  /-- What is known of a transaction. -/
  | transaction (transaction : Option Transaction)
  /-- A decision, if there is one. -/
  | decision (decision : Option Decision)
  /-- A vote, if there is one. -/
  | vote (vote : Option Vote)
  /-- A participant's state, if there is one. -/
  | state (state : Option ParticipantState)
  /-- A participant's record, if there is one. -/
  | record (record : Option Record)
  /-- Transactions. -/
  | transactions (transactions : List TransactionId)
  /-- What the recovery of a coordinator has done. -/
  | coordinatorRecovery (report : Coordinator.RecoveryReport)
  /-- What the recovery of a participant has done. -/
  | participantRecovery (report : Participant.RecoveryReport)
  /-- A number, of calls or of bytes. -/
  | count (n : Nat)
  /-- The length of a file that has been opened. -/
  | opened (length : Nat)
  /-- Entries. -/
  | entries (entries : List Entry)
  /-- The number of entries. -/
  | size (n : Nat)
  /-- Bytes. -/
  | bytes (bytes : List UInt8)

/-- Why a command failed. -/
inductive Failure where
  /-- No such log or process. -/
  | unknown (name : String)
  /-- A contradiction. -/
  | state (cause : StateError)
  /-- A step of the protocol failed. -/
  | commit (cause : CommitError)
  /-- A log failed. -/
  | log (cause : LogError)
  /-- A recovery failed. -/
  | recovery (cause : RecoveryError)
  /-- A call failed. -/
  | transport (cause : TransportError)
  /-- A coordinator panicked. -/
  | panicked

end AtomicCommit.Cluster

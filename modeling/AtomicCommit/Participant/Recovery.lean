import AtomicCommit.Log.History
import AtomicCommit.Participant.Basic

/-!
# Recovery of a participant

After a restart a participant reloads the transactions that are prepared and asks their
coordinators for the decisions. All histories are replayed before anything is done, and all
payloads are restored before any decision is applied. Without a decision a transaction stays
prepared.
-/

namespace AtomicCommit.Participant

/-- What a recovery has done. -/
structure RecoveryReport where
  /-- The transactions resolved, with the decision applied. -/
  resolved : List (TransactionId × Decision) := []
  /-- The transactions that still await a decision. -/
  blocked : List TransactionId := []
deriving DecidableEq, Inhabited

/-- A step of a participant's recovery. -/
abbrev RecoveryStep := Action interface Memory RecoveryError

/-- The records of the histories in a scan of the log. -/
def replayAll (entries : List Entry) : Except StateError (List Record) := do
  return ((← (Log.groupByTransaction entries).mapM Record.replay).filterMap id)

/-- Asks for the decision of a prepared transaction, and applies it. -/
def resolve (self : ProcessId) (report : RecoveryReport) (record : Record) :
    RecoveryStep RecoveryReport := do
  let transaction := record.transaction
  match record.coordinator with
  | none => throw (.inconsistent (.missingCoordinator transaction))
  | some coordinator =>
    let stillBlocked := { report with blocked := report.blocked ++ [transaction] }
    match ← askDecision coordinator transaction with
    | .ok (some decision) =>
      match ← (handleDecision self transaction decision).attempt with
      | .ok () => return { report with resolved := report.resolved ++ [(transaction, decision)] }
      | .error (.log failure) => throw (.log failure)
      | .error _ => return stillBlocked
    | _ => return stillBlocked

/-- Reloads what is prepared and resolves what can be resolved. -/
def recover (self : ProcessId) : RecoveryStep RecoveryReport := do
  let entries ← (Host.scan self).mapError .log
  let records ← Action.ofExcept .inconsistent (replayAll entries)
  records.forM fun record => discard ((restore record).mapError .ofCommit)
  records.foldlM (resolve self) {}

end AtomicCommit.Participant

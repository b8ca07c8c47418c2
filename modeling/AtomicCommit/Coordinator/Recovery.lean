import AtomicCommit.Coordinator.Drive
import AtomicCommit.Log.History

/-!
# Recovery of a coordinator

After a restart a coordinator finishes what its log shows as unfinished. All histories are replayed
before any transaction is resumed, so that an impossible history stops recovery before anything is
sent.
-/

namespace AtomicCommit.Coordinator

/-- What a recovery has done. -/
structure RecoveryReport where
  /-- The transactions decided by it. -/
  decided : List TransactionId := []
  /-- The transactions that had been decided before. -/
  redelivered : List TransactionId := []
  /-- The transactions that are done now. -/
  completed : List TransactionId := []
  /-- The transactions that some participant has not acknowledged. -/
  undelivered : List TransactionId := []
deriving DecidableEq, Inhabited

/-- The report after one more transaction. -/
def RecoveryReport.add (report : RecoveryReport) (transaction : TransactionId)
    (wasDecided completed : Bool) : RecoveryReport :=
  { decided := if wasDecided then report.decided else report.decided ++ [transaction]
    redelivered := if wasDecided then report.redelivered ++ [transaction] else report.redelivered
    completed := if completed then report.completed ++ [transaction] else report.completed
    undelivered := if completed then report.undelivered else report.undelivered ++ [transaction] }

/-- A step of a coordinator's recovery. -/
abbrev RecoveryStep := Action interface Memory RecoveryError

/-- The transactions of the histories in a scan of the log. -/
def replayAll (entries : List Entry) : Except StateError (List Transaction) :=
  (Log.groupByTransaction entries).mapM Transaction.replay

/-- Finishes one transaction as far as possible. -/
def finish (self : Coordinator) (report : RecoveryReport) (replayed : Transaction) :
    RecoveryStep RecoveryReport := do
  let t ← restore replayed
  let outcome ← (self.resume t).mapError .ofCommit
  return report.add replayed.id replayed.decision.isSome outcome.fullyAcknowledged

/-- Finishes every unfinished transaction as far as possible. -/
def recover (self : Coordinator) : RecoveryStep RecoveryReport := do
  let entries ← (Host.scan self.id).mapError .log
  let transactions ← Action.ofExcept .inconsistent (replayAll entries)
  transactions.foldlM self.finish {}

end AtomicCommit.Coordinator

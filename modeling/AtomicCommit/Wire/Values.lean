import AtomicCommit.Protocol.Operation
import AtomicCommit.Protocol.State
import AtomicCommit.Time.Timestamp
import AtomicCommit.Transaction.Id
import AtomicCommit.Wire.Format

/-!
# JSON formats of single values

Identifiers and words as texts, bytes as arrays of numbers, points in time as records of seconds
and nanoseconds since the epoch, and data as it is.
-/

namespace AtomicCommit.Wire

open AtomicCommit.Json (Tree Value Document)

/-- Transaction identifiers: read in any form, written with hyphens. -/
def transactionId : Format TransactionId :=
  Format.text.through TransactionId.ofText? TransactionId.text

/-- Process names. -/
def processId : Format ProcessId := Format.text.through (fun name => some ⟨name⟩) ProcessId.name

/-- Votes. -/
def vote : Format Vote := Format.enumeration Vote.all Vote.word

/-- Decisions. -/
def decision : Format Decision := Format.enumeration Decision.all Decision.word

/-- Outcomes. -/
def outcome : Format Outcome := Format.enumeration Outcome.all Outcome.word

/-- States of either role. -/
def state : Format State := Format.enumeration State.all State.word

/-- States of a coordinator. -/
def coordinatorState : Format CoordinatorState :=
  Format.enumeration CoordinatorState.all fun s => s.toState.word

/-- States of a participant. -/
def participantState : Format ParticipantState :=
  Format.enumeration ParticipantState.all fun s => s.toState.word

/-- Bytes, each as a number. -/
def preparedPayload : Format PreparedPayload :=
  (Format.natural 256).list.through (fun ns => some ⟨ns.map UInt8.ofNat⟩)
    fun p => p.bytes.map UInt8.toNat

/-- Data of any shape. -/
def document : Format Document where
  read := Document.ofTree?
  write d := some d.value

/-- Points in time from the epoch on. More nanoseconds than a second has carry over. -/
def timestamp : Format Timestamp where
  read := Format.readRecord ["secs_since_epoch", "nanos_since_epoch"] true fun
    | room, [seconds, nanos] => do
      let seconds ← Format.required (.natural (Nat.pow 2 64)) room seconds
      let nanos ← Format.required (.natural (Nat.pow 2 32)) room nanos
      Timestamp.ofParts? seconds nanos
    | _, _ => none
  write t :=
    if t.nanos < 0 then none
    else do
      let seconds ← (Format.natural (Nat.pow 2 64)).write t.seconds.toNat
      let nanos ← (Format.natural (Nat.pow 2 32)).write t.subsecond
      return .object [("secs_since_epoch", seconds), ("nanos_since_epoch", nanos)]

end AtomicCommit.Wire

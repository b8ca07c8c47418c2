import AtomicCommit.Error.Commit
import AtomicCommit.Wire.Records

/-!
# The resource manager of a cluster

A resource manager without resources. What it answers depends on the kinds of the operations and on
failures ordered in advance.
-/

namespace AtomicCommit.Cluster

/-- How often each call is still to fail. -/
structure Failures where
  /-- Checks that fail. -/
  check : Nat := 0
  /-- Checks that refuse. -/
  refuse : Nat := 0
  /-- Preparations that fail. -/
  prepare : Nat := 0
  /-- Commits that fail. -/
  commit : Nat := 0
  /-- Aborts that fail. -/
  abort : Nat := 0
  /-- Restorations that fail. -/
  restore : Nat := 0
deriving DecidableEq, Inhabited

/-- A byte of a JSON value. -/
def byteOf? : Json.Value → Option UInt8
  | .number (.integer n) =>
    if 0 ≤ n.value ∧ n.value < 256 then some (UInt8.ofNat n.value.toNat) else none
  | _ => none

/-- The bytes that a JSON array lists. -/
def bytesOf? : Json.Value → Option (List UInt8)
  | .array items => items.mapM byteOf?
  | _ => none

/-- The payload of operations: what the first operation of kind `bytes` lists, or else the JSON text
of all. -/
def payloadOf (operations : List Operation) : Except Fault PreparedPayload :=
  if operations.any fun o => o.kind = "explode" then .error (.reported "prepare failed")
  else
    match operations.find? fun o => o.kind = "bytes" with
    | some o =>
      match bytesOf? o.data.value with
      | some bytes => .ok ⟨bytes⟩
      | none => .error (.reported "not bytes")
    | none => .ok ⟨(Wire.operations.encode? operations).getD []⟩

namespace Failures

/-- Checks operations: those of kind `reject` are refused. -/
def checkOperations (f : Failures) (operations : List Operation) : Except Fault Bool × Failures :=
  if 0 < f.check then (.error (.reported "check failed"), { f with check := f.check - 1 })
  else if 0 < f.refuse then (.ok false, { f with refuse := f.refuse - 1 })
  else (.ok !(operations.any fun o => o.kind = "reject"), f)

/-- Prepares operations. -/
def prepareOperations (f : Failures) (operations : List Operation) :
    Except Fault PreparedPayload × Failures :=
  if 0 < f.prepare then (.error (.reported "prepare failed"), { f with prepare := f.prepare - 1 })
  else (payloadOf operations, f)

/-- Commits. -/
def commitPrepared (f : Failures) : Except Fault Unit × Failures :=
  if 0 < f.commit then (.error (.reported "commit failed"), { f with commit := f.commit - 1 })
  else (.ok (), f)

/-- Aborts. -/
def abortPrepared (f : Failures) : Except Fault Unit × Failures :=
  if 0 < f.abort then (.error (.reported "abort failed"), { f with abort := f.abort - 1 })
  else (.ok (), f)

/-- Takes hold of what was prepared. -/
def restorePrepared (f : Failures) : Except Fault Unit × Failures :=
  if 0 < f.restore then (.error (.reported "restore failed"), { f with restore := f.restore - 1 })
  else (.ok (), f)

end Failures

end AtomicCommit.Cluster

import AtomicCommit.Json.Value

/-!
# Operations and prepared payloads

An operation is a unit of work for a participant. The protocol hands operations to the resource
manager as they are, and keeps what the resource manager returns from preparing them, byte for
byte, until the transaction is resolved.
-/

namespace AtomicCommit

/-- A unit of work that a participant is asked to apply. -/
structure Operation where
  /-- What is to be done. -/
  kind : String
  /-- What it is done to. -/
  resource : String
  /-- Further data, of any shape. -/
  data : Json.Document
deriving DecidableEq, Inhabited

/-- What a resource manager needs to commit or abort what it has prepared. -/
structure PreparedPayload where
  /-- The bytes, which only the resource manager understands. -/
  bytes : List UInt8
deriving DecidableEq, Inhabited

end AtomicCommit

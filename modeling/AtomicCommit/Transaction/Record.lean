import AtomicCommit.Transaction.Role

/-!
# A transaction at a participant

What a participant durably knows of a transaction. Like the coordinator's view it changes only by
applying log entries.

## Main definitions

* `Record.apply`, `Record.replay`.
-/

namespace AtomicCommit

/-- A participant's view of a transaction. -/
structure Record where
  /-- The transaction. -/
  transaction : TransactionId
  /-- Who asked for the vote; none if the transaction was aborted before anyone did. -/
  coordinator : Option ProcessId
  /-- How far the transaction has come here. -/
  state : ParticipantState := .idle
  /-- The vote given. -/
  vote : Option Vote := none
  /-- What the resource manager prepared. -/
  payload : Option PreparedPayload := none
deriving DecidableEq

namespace Record

/-- The record after an entry that leads to `next`, if its data belongs there. -/
def step (r : Record) (next : ParticipantState) (payload : Payload) : Except StateError Record :=
  match payload, next with
  | .prepared _ prepared, .prepared =>
    .ok { r with vote := some .yes, payload := some prepared, state := next }
  | .voted _ .no, .aborted => .ok { r with vote := some .no, state := next }
  | .resolved decision, next =>
    if next = .resolved decision then .ok { r with state := next }
    else .error (.payloadMove payload next)
  | _, _ => .error (.payloadMove payload next)

/-- Applies an entry. -/
def apply (r : Record) (entry : Entry) : Except StateError Record :=
  if entry.transaction ≠ r.transaction ∨ entry.previous ≠ some r.state.toState then
    .error (.notFollowing entry.previous entry.state entry.transaction r.state)
  else do
    let next ← ParticipantState.ofState entry.state
    if r.state.canMoveTo next then r.step next entry.payload
    else throw (.participantMove r.transaction r.state next)

/-- The coordinator that the first entry of a history names: `some none` for an abort that came
before any vote was asked for, and `none` if no history starts so. -/
def coordinatorOf? : Payload → Option (Option ProcessId)
  | .prepared coordinator _ => some (some coordinator)
  | .voted coordinator _ => some (some coordinator)
  | .resolved .abort => some none
  | _ => none

/-- Rebuilds a record from the entries one participant wrote for a transaction, in order; without
entries there is none. -/
def replay : List Entry → Except StateError (Option Record)
  | [] => .ok none
  | first :: rest =>
    match coordinatorOf? first.payload with
    | none => .error (.historyStart first.transaction first.payload)
    | some coordinator => do
      let start : Record := { transaction := first.transaction, coordinator }
      return some (← (first :: rest).foldlM apply start)

/-- Whether the decision has been applied. -/
def hasApplied (r : Record) (decision : Decision) : Bool := r.state = .resolved decision

end Record

end AtomicCommit

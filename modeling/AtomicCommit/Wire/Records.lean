import AtomicCommit.Log.Entry
import AtomicCommit.Protocol.Message
import AtomicCommit.Wire.Values

/-!
# JSON formats of operations, messages and log entries

Records are written as objects with their fields in the order given here. A payload is the word
`none`, or an object whose only key is the name of its case.
-/

namespace AtomicCommit.Wire

open AtomicCommit.Json (Tree Value Document)

/-- Operations; missing data is null. -/
def operation : Format Operation where
  read := Format.readRecord ["type", "resource", "data"] false fun
    | room, [kind, resource, data] => do
      let kind ← Format.required .text room kind
      let resource ← Format.required .text room resource
      let data ← (data.map (document.read room)).getD (some .null)
      return { kind, resource, data }
    | _, _ => none
  write o := some <| .object
    [("type", .string o.kind), ("resource", .string o.resource), ("data", o.data.value)]

/-- Lists of operations. -/
def operations : Format (List Operation) := operation.list

/-- Messages that ask for a vote. -/
def prepareMessage : Format PrepareMessage where
  read := Format.readRecord ["transaction_id", "coordinator", "operations"] false fun
    | room, [transaction, coordinator, work] => do
      let transaction ← Format.required transactionId room transaction
      let coordinator ← Format.required processId room coordinator
      let operations ← Format.required operations room work
      return { transaction, coordinator, operations }
    | _, _ => none
  write m := do
    let work ← operations.write m.operations
    return .object [("transaction_id", .string m.transaction.text),
      ("coordinator", .string m.coordinator.name), ("operations", work)]

/-- Messages that tell a decision. -/
def decisionMessage : Format DecisionMessage where
  read := Format.readRecord ["transaction_id", "decision"] false fun
    | room, [transaction, decided] => do
      let transaction ← Format.required transactionId room transaction
      let decision ← Format.required decision room decided
      return { transaction, decision }
    | _, _ => none
  write m := some <| .object
    [("transaction_id", .string m.transaction.text), ("decision", .string m.decision.word)]

/-- Reads the fields of a payload of the named case. -/
def readPayload (room : Nat) : String → Tree → Option Payload
  | "none", .null => some .none
  | "begin", tree =>
    Format.readRecord ["participants", "operations", "deadline"] false (fun
      | room, [participants, assigned, deadline] => do
        let participants ← Format.required processId.list room participants
        let assigned ← Format.required (.byProcess operations) room assigned
        let deadline ← Format.required timestamp room deadline
        return .begin participants assigned deadline
      | _, _ => none) room tree
  | "vote", tree =>
    Format.readRecord ["participant", "vote"] false (fun
      | room, [participant, cast] => do
        let participant ← Format.required processId room participant
        let cast ← Format.required vote room cast
        return .vote participant cast
      | _, _ => none) room tree
  | "decision", tree =>
    Format.readRecord ["decision"] false (fun
      | room, [decided] => do
        let decided ← Format.required decision room decided
        return .decision decided
      | _, _ => none) room tree
  | "acknowledged", tree =>
    Format.readRecord ["participant"] false (fun
      | room, [participant] => do
        let participant ← Format.required processId room participant
        return .acknowledged participant
      | _, _ => none) room tree
  | "prepared", tree =>
    Format.readRecord ["coordinator", "payload"] false (fun
      | room, [coordinator, payload] => do
        let coordinator ← Format.required processId room coordinator
        let payload ← Format.required preparedPayload room payload
        return .prepared coordinator payload
      | _, _ => none) room tree
  | "voted", tree =>
    Format.readRecord ["coordinator", "vote"] false (fun
      | room, [coordinator, cast] => do
        let coordinator ← Format.required processId room coordinator
        let cast ← Format.required vote room cast
        return .voted coordinator cast
      | _, _ => none) room tree
  | "resolved", tree =>
    Format.readRecord ["decision"] false (fun
      | room, [decided] => do
        let decided ← Format.required decision room decided
        return .resolved decided
      | _, _ => none) room tree
  | _, _ => none

/-- An object with a single member. -/
def tagged (name : String) (fields : List (String × Value)) : Value :=
  .object [(name, .object fields)]

/-- Payloads. -/
def payload : Format Payload where
  read
    | _, .string literal => if literal.text? = some "none" then some .none else none
    | room + 1, .object [(key, tree)] => key.text?.bind fun name => readPayload room name tree
    | _, _ => none
  write
    | .none => some (.string "none")
    | .begin participants assigned deadline => do
      let participants ← processId.list.write participants
      let assigned ← (Format.byProcess operations).write assigned
      let deadline ← timestamp.write deadline
      return tagged "begin"
        [("participants", participants), ("operations", assigned), ("deadline", deadline)]
    | .vote participant cast => some <| tagged "vote"
      [("participant", .string participant.name), ("vote", .string cast.word)]
    | .decision decided => some <| tagged "decision" [("decision", .string decided.word)]
    | .acknowledged participant => some <| tagged "acknowledged"
      [("participant", .string participant.name)]
    | .prepared coordinator prepared => do
      let prepared ← preparedPayload.write prepared
      return tagged "prepared" [("coordinator", .string coordinator.name), ("payload", prepared)]
    | .voted coordinator cast => some <| tagged "voted"
      [("coordinator", .string coordinator.name), ("vote", .string cast.word)]
    | .resolved decided => some <| tagged "resolved" [("decision", .string decided.word)]

/-- Log entries; a missing earlier state is none. An entry with a time before the epoch has no
written form. -/
def entry : Format Entry where
  read := Format.readRecord
    ["transaction_id", "actor", "from_state", "to_state", "payload", "timestamp"] false fun
    | room, [transaction, actor, previous, after, data, time] => do
      let transaction ← Format.required transactionId room transaction
      let actor ← Format.required processId room actor
      let previous ← Format.nullable state room previous
      let state ← Format.required state room after
      let payload ← Format.required payload room data
      let time ← Format.required timestamp room time
      return { transaction, actor, previous, state, payload, time }
    | _, _ => none
  write e := do
    let data ← payload.write e.payload
    let time ← timestamp.write e.time
    return .object [("transaction_id", .string e.transaction.text), ("actor", .string e.actor.name),
      ("from_state", (e.previous.map fun s => Value.string s.word).getD .null),
      ("to_state", .string e.state.word), ("payload", data), ("timestamp", time)]

end AtomicCommit.Wire

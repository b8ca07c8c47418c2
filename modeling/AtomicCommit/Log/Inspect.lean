import AtomicCommit.Log.Entry
import AtomicCommit.Text.Quoted

/-!
# Payloads inside messages

The text of a payload, and of what it is made of, as errors quote it: the name of the case, and
its fields in braces or parentheses.
-/

namespace AtomicCommit

/-- Named fields between braces, after a name. -/
def inspectFields (name : String) (fields : List (String × String)) : String :=
  name ++ Text.listed " \x7b " " \x7d" (fields.map fun f => f.1 ++ ": " ++ f.2)

/-- The text of a process inside messages. -/
def ProcessId.inspect (p : ProcessId) : String := "ProcessId(" ++ Text.quoted p.name ++ ")"

namespace Json.Value

mutual

/-- The text of a JSON value inside messages. -/
def inspect : Value → String
  | .null => "Null"
  | .bool true => "Bool(true)"
  | .bool false => "Bool(false)"
  | .number n => "Number(" ++ n.text ++ ")"
  | .string text => "String(" ++ Text.quoted text ++ ")"
  | .array items => "Array " ++ Text.listed "[" "]" (inspectItems items)
  | .object members => "Object " ++ Text.listed "\x7b" "\x7d" (inspectMembers members)

/-- The texts of the items of an array. -/
def inspectItems : List Value → List String
  | [] => []
  | item :: rest => inspect item :: inspectItems rest

/-- The texts of the members of an object. -/
def inspectMembers : List (String × Value) → List String
  | [] => []
  | (key, value) :: rest => (Text.quoted key ++ ": " ++ inspect value) :: inspectMembers rest

end

end Json.Value

/-- The text of an operation inside messages. -/
def Operation.inspect (o : Operation) : String :=
  inspectFields "Operation" [("kind", Text.quoted o.kind), ("resource", Text.quoted o.resource),
    ("data", o.data.value.inspect)]

/-- The text of a prepared payload inside messages. -/
def PreparedPayload.inspect (p : PreparedPayload) : String :=
  "PreparedPayload(" ++ Text.listed "[" "]" (p.bytes.map toString) ++ ")"

/-- The text of an assignment inside messages. -/
def Assignment.inspect (a : Assignment) : String :=
  Text.listed "\x7b" "\x7d" (a.entries.map fun (p, operations) =>
    p.inspect ++ ": " ++ Text.listed "[" "]" (operations.map Operation.inspect))

/-- The text of a payload inside messages. -/
def Payload.inspect : Payload → String
  | .none => "None"
  | .begin participants operations deadline =>
    inspectFields "Begin"
      [("participants", Text.listed "[" "]" (participants.map ProcessId.inspect)),
       ("operations", Assignment.inspect operations), ("deadline", deadline.inspect)]
  | .vote participant v =>
    inspectFields "Vote" [("participant", participant.inspect), ("vote", v.inspect)]
  | .decision d => inspectFields "Decision" [("decision", d.inspect)]
  | .acknowledged participant =>
    inspectFields "Acknowledged" [("participant", participant.inspect)]
  | .prepared coordinator payload =>
    inspectFields "Prepared" [("coordinator", coordinator.inspect), ("payload", payload.inspect)]
  | .voted coordinator v =>
    inspectFields "Voted" [("coordinator", coordinator.inspect), ("vote", v.inspect)]
  | .resolved d => inspectFields "Resolved" [("decision", d.inspect)]

end AtomicCommit

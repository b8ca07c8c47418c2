import AtomicCommit.Error.State

/-!
# Identifiers given as text
-/

namespace AtomicCommit

/-- The identifier of a text, or what is wrong with it. -/
def TransactionId.parse (text : String) : Except StateError TransactionId :=
  match ofText? text with
  | some id => .ok id
  | none => .error (.invalidId text)

end AtomicCommit

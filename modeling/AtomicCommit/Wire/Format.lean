import AtomicCommit.Json.Writer
import AtomicCommit.Process
import AtomicCommit.Sorted.Map

/-!
# JSON formats

A format reads a type from JSON trees and writes it as JSON values. Readers are lenient where
writers are not: a record may be an object with members in any order or an array of its fields,
unknown members are skipped unread, and a word may stand as the only key of an object. What is
read is counted against a bound on nesting; what is skipped is not.

## Main definitions

* `Format`, `Format.decode?`, `Format.encode?`.
* `Format.record`, `Format.enumeration`, `Format.list`, `Format.text`, `Format.natural`.
-/

namespace AtomicCommit.Wire

open AtomicCommit.Json (Tree Literal Value)

/-- How a type is read and written. -/
structure Format (α : Type) where
  /-- The value of a tree, with room for that many nested containers. -/
  read : Nat → Tree → Option α
  /-- The form of a value, if it has one. -/
  write : α → Option Value

namespace Format

variable {α β : Type}

/-- The number of containers that may be nested. -/
def maxNesting : Nat := 127

/-- The value of a text. -/
def decode? (f : Format α) (bytes : List UInt8) : Option α :=
  (Tree.ofBytes? bytes).bind (f.read maxNesting)

/-- The text of a value. -/
def encode? (f : Format α) (a : α) : Option (List UInt8) := (f.write a).map Value.render

/-- A format through a type that has one. -/
def through (f : Format α) (ofValue : α → Option β) (toValue : β → α) : Format β where
  read room tree := (f.read room tree).bind ofValue
  write b := f.write (toValue b)

/-- Texts. -/
def text : Format String where
  read
    | _, .string literal => literal.text?
    | _, _ => none
  write s := some (.string s)

/-- The integer of a tree that is written without point and exponent, and is none too great. -/
def integer? : Tree → Option Int
  | .number t =>
    match t.toNumber? with
    | some (.integer n) => some n.value
    | _ => none
  | _ => none

/-- Natural numbers below a bound. -/
def natural (bound : Nat) : Format Nat where
  read _ tree :=
    match integer? tree with
    | some n => if 0 ≤ n ∧ n < bound then some n.toNat else none
    | none => none
  write n := (Json.Integer.ofInt? n).map fun i => .number (.integer i)

/-- Lists of a format, as arrays. -/
def list (f : Format α) : Format (List α) where
  read
    | room + 1, .array items => items.mapM (f.read room)
    | _, _ => none
  write l := (l.mapM f.write).map .array

/-- The member that a word stands for. -/
def wordOf? (all : List α) (word : α → String) (literal : Literal) : Option α :=
  literal.text?.bind fun w => all.find? fun a => word a = w

/-- A type of which each member has a word. -/
def enumeration (all : List α) (word : α → String) : Format α where
  read
    | _, .string literal => wordOf? all word literal
    | _ + 1, .object [(key, .null)] => wordOf? all word key
    | _, _ => none
  write a := some (.string (word a))

/-! ## Records -/

/-- The members of an object with their keys as texts. -/
def keyed? : List (Literal × Tree) → Option (List (String × Tree))
  | [] => some []
  | (key, tree) :: rest =>
    match key.text?, keyed? rest with
    | some key, some rest => some ((key, tree) :: rest)
    | _, _ => none

/-- The member of a field: `some none` if it is missing, `none` if it is repeated. -/
def field? (members : List (String × Tree)) (name : String) : Option (Option Tree) :=
  match members.filter fun m => m.1 = name with
  | [] => some none
  | [m] => some (some m.2)
  | _ => none

/-- The trees of the named fields of a record, in the order of the names, missing ones as `none`.
With `closed` an object may have no other member. -/
def fields? (names : List String) (closed : Bool) : Tree → Option (List (Option Tree))
  | .object members =>
    (keyed? members).bind fun members =>
      if closed && members.any fun m => !names.contains m.1 then none
      else names.mapM (field? members)
  | .array items =>
    if names.length < items.length then none
    else some (items.map some ++ List.replicate (names.length - items.length) none)
  | _ => none

/-- Reads a record from the trees of its fields. -/
def readRecord (names : List String) (closed : Bool) (build : Nat → List (Option Tree) → Option α) :
    Nat → Tree → Option α
  | room + 1, tree => (fields? names closed tree).bind (build room)
  | 0, _ => none

/-- Reads a field that may not be missing. -/
def required (f : Format α) (room : Nat) (field : Option Tree) : Option α :=
  field.bind (f.read room)

/-- Reads a field that may be missing or null. -/
def nullable (f : Format α) (room : Nat) : Option Tree → Option (Option α)
  | none | some .null => some none
  | some tree => (f.read room tree).map some

/-! ## Maps from processes -/

/-- Reads the members of an object into a map, where the last of equal keys counts. -/
def readEntries (f : Format α) (room : Nat) (found : SortedMap ProcessId α) :
    List (Literal × Tree) → Option (SortedMap ProcessId α)
  | [] => some found
  | (key, tree) :: rest =>
    match key.text?, f.read room tree with
    | some key, some value => readEntries f room (found.insert ⟨key⟩ value) rest
    | _, _ => none

/-- Maps from processes, as objects. -/
def byProcess (f : Format α) : Format (SortedMap ProcessId α) where
  read
    | room + 1, .object members => readEntries f room ∅ members
    | _, _ => none
  write m := (m.entries.mapM fun e => (f.write e.2).map (e.1.name, ·)).map .object

end Format

end AtomicCommit.Wire

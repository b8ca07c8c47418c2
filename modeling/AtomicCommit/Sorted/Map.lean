
/-!
# Maps in key order

`SortedMap κ α` is a finite map kept as its list of entries with strictly ascending keys. The
order is part of the type, so two maps with the same entries are equal, and whatever is listed
from a map comes out in key order. `SortedSet κ` is a map to `Unit`.

## Main definitions

* `SortedMap.get?`, `SortedMap.insert`, `SortedMap.erase`, `SortedMap.ofList`.
* `SortedSet.insert`, `SortedSet.toList`, `SortedSet.ofList`.
-/

namespace AtomicCommit

universe u v

/-- A finite map whose entries are listed in strictly ascending order of their keys. -/
structure SortedMap (κ : Type u) (α : Type v) [Ord κ] where
  /-- The entries, in ascending order of their keys. -/
  entries : List (κ × α)
  /-- Every key is below every later one. -/
  ascending : entries.Pairwise fun a b => compare a.1 b.1 = .lt := by exact .nil

namespace SortedMap

variable {κ : Type u} {α : Type v} [Ord κ]

instance [DecidableEq κ] [DecidableEq α] : DecidableEq (SortedMap κ α) := fun a b =>
  match decEq a.entries b.entries with
  | .isTrue h => .isTrue (by cases a; cases b; cases h; rfl)
  | .isFalse h => .isFalse fun e => h (e ▸ rfl)

/-- Maps with the same entries are equal. -/
theorem eq_of_entries_eq {m n : SortedMap κ α} (h : m.entries = n.entries) : m = n := by
  cases m; cases n; cases h; rfl

/-- The map without entries. -/
def empty : SortedMap κ α := { entries := [] }

instance : EmptyCollection (SortedMap κ α) := ⟨empty⟩

instance : Inhabited (SortedMap κ α) := ⟨empty⟩

/-- The number of entries. -/
def size (m : SortedMap κ α) : Nat := m.entries.length

/-- Whether the map has no entries. -/
def isEmpty (m : SortedMap κ α) : Bool := m.entries.isEmpty

/-- The keys, in ascending order. -/
def keys (m : SortedMap κ α) : List κ := m.entries.map Prod.fst

/-- The values, in the order of their keys. -/
def values (m : SortedMap κ α) : List α := m.entries.map Prod.snd

/-- The value at a key in a list of entries. -/
def find (k : κ) : List (κ × α) → Option α
  | [] => none
  | (k', a) :: rest => if compare k k' = .eq then some a else find k rest

/-- The value at a key, if the map has one. -/
def get? (m : SortedMap κ α) (k : κ) : Option α := find k m.entries

/-- Whether the map has a value at the key. -/
def contains (m : SortedMap κ α) (k : κ) : Bool := (m.get? k).isSome

/-- A list of entries with the key put in its place, over any entry that had it. -/
def place (k : κ) (a : α) : List (κ × α) → List (κ × α)
  | [] => [(k, a)]
  | (k', a') :: rest =>
    match compare k k' with
    | .lt => (k, a) :: (k', a') :: rest
    | .eq => (k, a) :: rest
    | .gt => (k', a') :: place k a rest

theorem mem_place {k : κ} {a : α} {e : κ × α} {l : List (κ × α)} (h : e ∈ place k a l) :
    e = (k, a) ∨ e ∈ l := by
  induction l with
  | nil => simpa [place] using h
  | cons head rest ih =>
    obtain ⟨k', a'⟩ := head
    unfold place at h
    split at h
    · simpa using h
    · rcases List.mem_cons.1 h with h | h
      · exact .inl h
      · exact .inr (.tail _ h)
    · rcases List.mem_cons.1 h with h | h
      · exact .inr (h ▸ .head _)
      · exact (ih h).imp_right (.tail _)

variable [Std.TransOrd κ] [Std.LawfulEqOrd κ]

theorem ascending_place (k : κ) (a : α) {l : List (κ × α)}
    (h : l.Pairwise fun a b => compare a.1 b.1 = .lt) :
    (place k a l).Pairwise fun a b => compare a.1 b.1 = .lt := by
  induction l with
  | nil => simp [place]
  | cons head rest ih =>
    obtain ⟨k', a'⟩ := head
    have ⟨below, tail⟩ := List.pairwise_cons.1 h
    unfold place
    split
    · rename_i lt
      refine List.pairwise_cons.2 ⟨fun e he => ?_, h⟩
      rcases List.mem_cons.1 he with rfl | he
      · exact lt
      · exact Std.TransCmp.lt_trans lt (below e he)
    · rename_i eq
      rw [Std.LawfulEqCmp.eq_of_compare eq]
      exact List.pairwise_cons.2 ⟨below, tail⟩
    · rename_i gt
      refine List.pairwise_cons.2 ⟨fun e he => ?_, ih tail⟩
      rcases mem_place he with rfl | he
      · exact Std.OrientedCmp.gt_iff_lt.1 gt
      · exact below e he

/-- The map with `a` at the key `k`, over any earlier value there. -/
def insert (m : SortedMap κ α) (k : κ) (a : α) : SortedMap κ α :=
  ⟨place k a m.entries, ascending_place k a m.ascending⟩

omit [Std.TransOrd κ] [Std.LawfulEqOrd κ] in
/-- The map without the entry at the key. -/
def erase (m : SortedMap κ α) (k : κ) : SortedMap κ α :=
  ⟨m.entries.filter fun e => compare e.1 k != .eq, m.ascending.filter _⟩

/-- The map of a list of pairs; of several pairs with one key the last counts. -/
def ofList (l : List (κ × α)) : SortedMap κ α :=
  l.foldl (fun m e => m.insert e.1 e.2) empty

end SortedMap

/-- A finite set whose members are listed in ascending order. -/
abbrev SortedSet (κ : Type u) [Ord κ] := SortedMap κ Unit

namespace SortedSet

variable {κ : Type u} [Ord κ]

/-- The members, in ascending order. -/
def toList (s : SortedSet κ) : List κ := s.keys

variable [Std.TransOrd κ] [Std.LawfulEqOrd κ]

/-- The set with one more member. -/
def insert (s : SortedSet κ) (k : κ) : SortedSet κ := SortedMap.insert s k ()

/-- The set of the members of a list. -/
def ofList (l : List κ) : SortedSet κ := l.foldl insert SortedMap.empty

end SortedSet

end AtomicCommit

import AtomicCommit.Sorted.Map
import Mathlib.Data.List.Nodup
import Mathlib.Data.List.Perm.Subperm

/-!
# Lookup in maps in key order

A map is known by `get?`: what insertion and removal do to it at every key, and how the listings
`keys`, `values` and `toList` follow from it. A set is known by `contains`.
-/

namespace AtomicCommit

universe u v

namespace SortedMap

variable {κ : Type u} {α : Type v} [Ord κ]

@[simp] theorem get?_empty (k : κ) : (∅ : SortedMap κ α).get? k = none := rfl

@[simp] theorem contains_empty (k : κ) : (∅ : SortedMap κ α).contains k = false := rfl

theorem contains_iff {m : SortedMap κ α} {k : κ} :
    m.contains k = true ↔ ∃ a, m.get? k = some a := by
  simp [contains, Option.isSome_iff_exists]

@[simp] theorem length_keys (m : SortedMap κ α) : m.keys.length = m.size := by
  simp [keys, size]

@[simp] theorem length_values (m : SortedMap κ α) : m.values.length = m.size := by
  simp [values, size]

/-! ## Lookup in the list of entries -/

section Entries

variable [Std.LawfulEqOrd κ]

theorem find_cons (k k' : κ) (a : α) (l : List (κ × α)) [Decidable (k = k')] :
    find k ((k', a) :: l) = if k = k' then some a else find k l := by
  by_cases h : k = k'
  · simp [find, h]
  · have : compare k k' ≠ .eq := fun e => h (Std.LawfulEqCmp.eq_of_compare e)
    simp [find, h, this]

theorem mem_of_find {k : κ} {a : α} {l : List (κ × α)} (h : find k l = some a) : (k, a) ∈ l := by
  classical
  induction l with
  | nil => simp [find] at h
  | cons head rest ih =>
    obtain ⟨k', a'⟩ := head
    rw [find_cons] at h
    split at h
    · cases h
      subst k'
      exact .head _
    · exact .tail _ (ih h)

theorem find_of_mem {k : κ} {a : α} {l : List (κ × α)}
    (ascending : l.Pairwise fun a b => compare a.1 b.1 = .lt) (h : (k, a) ∈ l) :
    find k l = some a := by
  classical
  induction l with
  | nil => simp at h
  | cons head rest ih =>
    obtain ⟨k', a'⟩ := head
    have ⟨below, tail⟩ := List.pairwise_cons.1 ascending
    rw [find_cons]
    rcases List.mem_cons.1 h with h | h
    · cases h
      simp
    · have lt : compare k' k = .lt := below _ h
      have ne : k ≠ k' := fun e => by subst e; simp at lt
      rw [if_neg ne, ih tail h]

theorem find_place (k k' : κ) (a : α) (l : List (κ × α)) [DecidableEq κ] :
    find k' (place k a l) = if k' = k then some a else find k' l := by
  induction l with
  | nil => simp [place, find_cons]
  | cons head rest ih =>
    obtain ⟨k₁, a₁⟩ := head
    unfold place
    split
    · rw [find_cons]
    · rename_i eq
      cases Std.LawfulEqCmp.eq_of_compare eq
      by_cases h : k' = k <;> simp [find_cons, h]
    · rename_i gt
      have ne : k ≠ k₁ := fun e => by subst e; simp at gt
      rw [find_cons, find_cons, ih]
      by_cases h : k' = k
      · simp [h, ne]
      · simp [h]

theorem find_filter_ne (k k' : κ) (l : List (κ × α)) [DecidableEq κ] :
    find k' (l.filter fun e => compare e.1 k != .eq) = if k' = k then none else find k' l := by
  induction l with
  | nil => simp [find]
  | cons head rest ih =>
    obtain ⟨k₁, a₁⟩ := head
    by_cases h₁ : k₁ = k
    · rw [List.filter_cons_of_neg (by simp [h₁]), ih, find_cons]
      by_cases h : k' = k <;> simp [h, h₁]
    · have keeps : compare k₁ k ≠ .eq := fun e => h₁ (Std.LawfulEqCmp.eq_of_compare e)
      rw [List.filter_cons_of_pos (by simpa using keeps), find_cons, find_cons, ih]
      by_cases h : k' = k
      · have ne : k ≠ k₁ := fun e => h₁ e.symm
        simp [h, ne]
      · simp [h]

/-- The entries are those that lookup finds. -/
theorem mem_entries_iff {m : SortedMap κ α} {k : κ} {a : α} :
    (k, a) ∈ m.entries ↔ m.get? k = some a :=
  ⟨find_of_mem m.ascending, mem_of_find⟩

theorem mem_keys_iff {m : SortedMap κ α} {k : κ} : k ∈ m.keys ↔ m.contains k = true := by
  simp [keys, contains_iff, ← mem_entries_iff]

theorem mem_values_iff {m : SortedMap κ α} {a : α} :
    a ∈ m.values ↔ ∃ k, m.get? k = some a := by
  simp [values, ← mem_entries_iff]

/-- What a map holds after a removal. -/
theorem get?_erase (m : SortedMap κ α) (k k' : κ) [DecidableEq κ] :
    (m.erase k).get? k' = if k' = k then none else m.get? k' :=
  find_filter_ne k k' m.entries

end Entries

/-! ## Insertion -/

variable [Std.TransOrd κ]

/-- No key is listed twice. -/
theorem nodup_keys (m : SortedMap κ α) : m.keys.Nodup := by
  refine List.pairwise_map.2 (m.ascending.imp ?_)
  intro a b lt eq
  rw [eq] at lt
  simp at lt

variable [Std.LawfulEqOrd κ]

/-- A map whose keys are among those of a map of the same size has all of them. -/
theorem contains_of_size_eq {β : Type*} {m : SortedMap κ α} {n : SortedMap κ β}
    (sub : ∀ k, m.contains k = true → n.contains k = true) (size : m.size = n.size) {k : κ}
    (h : n.contains k = true) : m.contains k = true := by
  have sub : m.keys ⊆ n.keys := fun k hk => mem_keys_iff.2 (sub k (mem_keys_iff.1 hk))
  have perm : m.keys.Perm n.keys :=
    (m.nodup_keys.subperm sub).perm_of_length_le (by simp [size])
  exact mem_keys_iff.1 (perm.mem_iff.2 (mem_keys_iff.2 h))

/-- A map whose keys are among those of another is no larger. -/
theorem size_le_of_contains {β : Type*} {m : SortedMap κ α} {n : SortedMap κ β}
    (sub : ∀ k, m.contains k = true → n.contains k = true) : m.size ≤ n.size := by
  have sub : m.keys ⊆ n.keys := fun k hk => mem_keys_iff.2 (sub k (mem_keys_iff.1 hk))
  simpa using (m.nodup_keys.subperm sub).length_le

/-- Maps that hold the same keys are of the same size. -/
theorem size_eq_of_contains {β : Type*} {m : SortedMap κ α} {n : SortedMap κ β}
    (same : ∀ k, m.contains k = true ↔ n.contains k = true) : m.size = n.size := by
  have perm : m.keys.Perm n.keys := by
    refine (List.perm_ext_iff_of_nodup m.nodup_keys n.nodup_keys).2 fun k => ?_
    rw [mem_keys_iff, mem_keys_iff, same]
  simpa using perm.length_eq

/-- A map is determined by what it holds at each key. -/
theorem eq_of_get?_eq {m n : SortedMap κ α} (h : ∀ k, m.get? k = n.get? k) : m = n := by
  have nodup : ∀ l : SortedMap κ α, l.entries.Nodup := fun l => l.nodup_keys.of_map _
  have perm : m.entries.Perm n.entries := by
    refine (List.perm_ext_iff_of_nodup (nodup m) (nodup n)).2 fun e => ?_
    rw [mem_entries_iff, mem_entries_iff, h]
  refine eq_of_entries_eq (perm.eq_of_pairwise ?_ m.ascending n.ascending)
  intro a b _ _ below above
  rw [Std.OrientedCmp.gt_of_lt above] at below
  cases below

variable [DecidableEq κ]

/-- What a map holds after an insertion. -/
theorem get?_insert (m : SortedMap κ α) (k k' : κ) (a : α) :
    (m.insert k a).get? k' = if k' = k then some a else m.get? k' :=
  find_place k k' a m.entries

@[simp] theorem get?_insert_self (m : SortedMap κ α) (k : κ) (a : α) :
    (m.insert k a).get? k = some a := by simp [get?_insert]

theorem contains_insert (m : SortedMap κ α) (k k' : κ) (a : α) :
    (m.insert k a).contains k' = (decide (k' = k) || m.contains k') := by
  by_cases h : k' = k <;> simp [contains, get?_insert, h]

/-! ## Insertion in order -/

omit [Std.LawfulEqOrd κ] [DecidableEq κ] in
/-- A key above all others is put last. -/
theorem place_of_below {k : κ} {l : List (κ × α)} (below : ∀ e ∈ l, compare e.1 k = .lt) (a : α) :
    place k a l = l ++ [(k, a)] := by
  induction l with
  | nil => rfl
  | cons e rest ih =>
    have gt : compare k e.1 = .gt := Std.OrientedCmp.gt_of_lt (below e (.head _))
    rw [place, gt]
    dsimp only
    rw [ih fun e' there => below e' (.tail _ there), List.cons_append]

omit [DecidableEq κ] in
/-- Entries in ascending order are put one after another. -/
theorem entries_foldl_insert {l : List (κ × α)}
    (ascending : l.Pairwise fun a b => compare a.1 b.1 = .lt) (m : SortedMap κ α)
    (below : ∀ e ∈ m.entries, ∀ e' ∈ l, compare e.1 e'.1 = .lt) :
    (l.foldl (fun m e => m.insert e.1 e.2) m).entries = m.entries ++ l := by
  induction l generalizing m with
  | nil => simp
  | cons e rest ih =>
    have ⟨first, others⟩ := List.pairwise_cons.1 ascending
    have placed : (m.insert e.1 e.2).entries = m.entries ++ [e] :=
      place_of_below (fun e' there => below e' there e (.head _)) e.2
    rw [List.foldl_cons, ih others, placed, List.append_assoc, List.singleton_append]
    intro e' there e'' later
    rw [placed] at there
    rcases List.mem_append.1 there with old | new
    · exact below e' old e'' (.tail _ later)
    · rw [List.mem_singleton.1 new]
      exact first e'' later

omit [DecidableEq κ] in
/-- A map is made of its entries. -/
theorem ofList_entries (m : SortedMap κ α) : ofList m.entries = m := by
  refine eq_of_entries_eq ?_
  exact entries_foldl_insert m.ascending empty (by simp [empty])

end SortedMap

namespace SortedSet

variable {κ : Type u} [Ord κ] [Std.LawfulEqOrd κ]

theorem mem_toList_iff {s : SortedSet κ} {k : κ} : k ∈ s.toList ↔ s.contains k = true :=
  SortedMap.mem_keys_iff

variable [Std.TransOrd κ] [DecidableEq κ]

theorem contains_insert (s : SortedSet κ) (k k' : κ) :
    (SortedSet.insert s k).contains k' = (decide (k' = k) || s.contains k') :=
  SortedMap.contains_insert s k k' ()

theorem contains_ofList {l : List κ} {k : κ} : (ofList l).contains k = true ↔ k ∈ l := by
  suffices ∀ s : SortedSet κ, (l.foldl insert s).contains k = true ↔ k ∈ l ∨ s.contains k = true by
    exact (this ∅).trans (by simp)
  induction l with
  | nil => simp
  | cons x rest ih =>
    intro s
    rw [List.foldl_cons, ih, contains_insert]
    simp only [List.mem_cons, Bool.or_eq_true, decide_eq_true_eq]
    tauto

omit [DecidableEq κ] in
/-- A set is determined by its members. -/
theorem eq_of_contains_eq {s s' : SortedSet κ} (h : ∀ k, s.contains k = s'.contains k) :
    s = s' := by
  refine SortedMap.eq_of_get?_eq fun k => ?_
  have := h k
  cases h : SortedMap.get? s k <;> cases h' : SortedMap.get? s' k <;>
    simp_all [SortedMap.contains]

omit [DecidableEq κ] in
/-- An ascending list of the members of a set is the list of the set. -/
theorem eq_toList {s : SortedSet κ} {l : List κ}
    (ascending : l.Pairwise fun a b => compare a b = .lt)
    (same : ∀ k, k ∈ l ↔ s.contains k = true) : l = s.toList := by
  let listed : SortedSet κ := ⟨l.map fun k => (k, ()), List.pairwise_map.2 ascending⟩
  have members : listed.toList = l := (List.map_map ..).trans (List.map_id l)
  have equal : listed = s := by
    refine eq_of_contains_eq fun k => ?_
    rw [Bool.eq_iff_iff, ← mem_toList_iff, members, same]
  rw [← equal, members]

/-- A set is the set of its members. -/
theorem ofList_toList (s : SortedSet κ) : ofList s.toList = s := by
  refine eq_of_contains_eq fun k => ?_
  rw [Bool.eq_iff_iff, contains_ofList, mem_toList_iff]

end SortedSet

end AtomicCommit

import AtomicCommit.Proofs.Json.Value
import AtomicCommit.Proofs.Sorted.Lookup
import AtomicCommit.Wire.Format

/-!
# Formats that read what they write

What a format writes of a value it reads as that value, if there is room for the nesting of what is
written, and not at all otherwise.

## Main definitions

* `Format.Returns`: what is written of a value is read back just if there is room for it.

## Main results

* `Format.Returns.list`, `Format.Returns.byProcess`, `Format.Returns.through`: lists, maps and types
  behind others.
* `Format.readRecord_object`: the fields of a record are found again.
* `Format.Returns.decode?`: texts.
-/

namespace AtomicCommit.Wire.Format

open AtomicCommit.Json (Tree Literal Value)

variable {α β : Type}

/-- What is written of a value holds integers for numbers only, and is read back just if there is
room for its nesting. -/
def Returns (f : Format α) (a : α) : Prop :=
  ∀ v, f.write a = some v → v.isIntegral = true ∧
    ∀ room, f.read room v.tree = if v.depth ≤ room then some a else none

/-- The text of a value is read back just if it nests no more than is allowed. -/
theorem Returns.decode? {f : Format α} {a : α} (h : f.Returns a) {v : Value}
    (written : f.write a = some v) :
    f.encode? a = some v.render ∧
      f.decode? v.render = if v.depth ≤ maxNesting then some a else none := by
  obtain ⟨integral, read⟩ := h v written
  rw [Format.encode?, written, Format.decode?, Json.Tree.ofBytes?_render v integral]
  exact ⟨rfl, read maxNesting⟩

/-- What is written as a text is read back from it. -/
theorem Returns.read_string {f : Format α} {a : α} (h : f.Returns a) {s : String}
    (written : f.write a = some (.string s)) (room : ℕ) :
    f.read room (Value.string s).tree = some a := by
  simpa [Value.depth] using (h _ written).2 room

/-! ## Single values -/

theorem returns_text (s : String) : text.Returns s := by
  rintro v ⟨⟩
  simp [text, Value.isIntegral, Value.tree, Value.depth]

theorem returns_enumeration {all : List α} {word : α → String} {a : α}
    (found : all.find? (fun b => word b = word a) = some a) :
    (enumeration all word).Returns a := by
  rintro v ⟨⟩
  simp [enumeration, wordOf?, Value.isIntegral, Value.tree, Value.depth, found]

theorem returns_natural {bound n : ℕ} (small : n < bound) : (natural bound).Returns n := by
  intro v written
  simp only [natural, Option.map_eq_some_iff] at written
  obtain ⟨i, value, rfl⟩ := written
  have same : i.value = n := Json.value_of_ofInt? value
  have read : integer? (Value.number (.integer i)).tree = some (n : Int) := by
    rw [Value.tree, integer?, Json.toNumber?_integerText]
    exact congrArg some same
  refine ⟨rfl, fun room => ?_⟩
  simp [natural, read, Value.depth, small]

theorem Returns.through {f : Format α} {ofValue : α → Option β} {toValue : β → α} {b : β}
    (h : f.Returns (toValue b)) (back : ofValue (toValue b) = some b) :
    (f.through ofValue toValue).Returns b := by
  intro v written
  obtain ⟨integral, read⟩ := h v written
  refine ⟨integral, fun room => ?_⟩
  simp only [Format.through, read]
  split <;> simp [back]

/-! ## Lists and maps -/

section Lists

variable {f : Format α}

/-- The written forms of a list are read back one by one. -/
theorem mapM_itemTrees {l : List α} (h : ∀ a ∈ l, f.Returns a) {vs : List Value}
    (written : l.mapM f.write = some vs) :
    Value.itemsIntegral vs = true ∧ ∀ room, (Value.itemTrees vs).mapM (f.read room) =
      if Value.itemsDepth vs ≤ room then some l else none := by
  induction l generalizing vs with
  | nil =>
    cases written
    simp [Value.itemsIntegral, Value.itemTrees, Value.itemsDepth]
  | cons a l ih =>
    rw [List.mapM_cons] at written
    obtain ⟨v, first, written⟩ := Option.bind_eq_some_iff.1 written
    obtain ⟨vs, others, written⟩ := Option.bind_eq_some_iff.1 written
    cases written
    obtain ⟨integral, read⟩ := h a (.head _) v first
    obtain ⟨integrals, reads⟩ := ih (fun b there => h b (.tail _ there)) others
    refine ⟨by simp [Value.itemsIntegral, integral, integrals], fun room => ?_⟩
    rw [Value.itemTrees, List.mapM_cons, read, reads, Value.itemsDepth]
    simp only [Nat.max_le]
    by_cases fits : v.depth ≤ room <;> by_cases others : Value.itemsDepth vs ≤ room <;>
      simp [fits, others]

theorem Returns.list {l : List α} (h : ∀ a ∈ l, f.Returns a) : f.list.Returns l := by
  intro v written
  obtain ⟨vs, items, rfl⟩ := Option.map_eq_some_iff.1 written
  obtain ⟨integral, read⟩ := mapM_itemTrees h items
  refine ⟨by simpa [Value.isIntegral] using integral, fun room => ?_⟩
  cases room with
  | zero => simp [Format.list, Value.tree, Value.depth]
  | succ room => simp [Format.list, Value.tree, Value.depth, read]

end Lists

/-- A list nests one deeper than what it lists. -/
theorem depth_list_le_iff {f : Format α} {l : List α} {P : α → Prop} {room : ℕ}
    (h : ∀ a ∈ l, ∀ v, f.write a = some v → (v.depth ≤ room ↔ P a)) {v : Value}
    (written : f.list.write l = some v) : v.depth ≤ room + 1 ↔ ∀ a ∈ l, P a := by
  obtain ⟨vs, items, rfl⟩ := Option.map_eq_some_iff.1 written
  rw [Value.depth, Nat.add_le_add_iff_right]
  clear written
  induction l generalizing vs with
  | nil =>
    cases items
    simp [Value.itemsDepth]
  | cons a l ih =>
    rw [List.mapM_cons] at items
    obtain ⟨v, first, items⟩ := Option.bind_eq_some_iff.1 items
    obtain ⟨vs, others, items⟩ := Option.bind_eq_some_iff.1 items
    cases items
    rw [Value.itemsDepth, Nat.max_le, h a (.head _) v first,
      ih (fun b there => h b (.tail _ there)) vs others, List.forall_mem_cons]

/-! ## Records -/

theorem keyed?_memberTrees (members : List (String × Value)) :
    keyed? (Value.memberTrees members) = some (members.map fun m => (m.1, m.2.tree)) := by
  induction members with
  | nil => rfl
  | cons member rest ih =>
    obtain ⟨key, value⟩ := member
    simp [Value.memberTrees, keyed?, ih]

/-- The only member of a name is its field. -/
theorem field?_of_mem {members : List (String × Tree)} (nodup : (members.map Prod.fst).Nodup)
    {m : String × Tree} (there : m ∈ members) : field? members m.1 = some (some m.2) := by
  have only : members.filter (fun m' => decide (m'.1 = m.1)) = [m] := by
    induction members with
    | nil => cases there
    | cons first rest ih =>
      rw [List.map_cons, List.nodup_cons] at nodup
      rcases List.mem_cons.1 there with rfl | later
      · have others : rest.filter (fun m' => decide (m'.1 = m.1)) = [] := by
          refine List.filter_eq_nil_iff.2 fun m' there => ?_
          rw [decide_eq_true_iff]
          exact fun same => nodup.1 (same ▸ List.mem_map_of_mem there)
        rw [List.filter_cons_of_pos (by simp), others]
      · have other : first.1 ≠ m.1 := fun same => nodup.1 (same ▸ List.mem_map_of_mem later)
        rw [List.filter_cons_of_neg (by simpa using other), ih nodup.2 later]
  rw [field?, only]

/-- The fields of an object that has just these are found again. -/
theorem fields?_object {members : List (String × Value)} (nodup : (members.map Prod.fst).Nodup)
    (closed : Bool) : fields? (members.map Prod.fst) closed (Value.object members).tree =
      some (members.map fun m => some m.2.tree) := by
  have found : ∀ l : List (String × Value), l ⊆ members →
      (l.map Prod.fst).mapM (field? (members.map fun m => (m.1, m.2.tree))) =
        some (l.map fun m => some m.2.tree) := by
    intro l sub
    induction l with
    | nil => rfl
    | cons m l ih =>
      have nodup : ((members.map fun m => (m.1, m.2.tree)).map Prod.fst).Nodup := by
        simpa [Function.comp_def] using nodup
      have there := List.mem_map_of_mem (f := fun m => (m.1, m.2.tree)) (sub (.head _))
      simp [field?_of_mem nodup there, ih fun m there => sub (.tail _ there)]
  have known : (members.map fun m => (m.1, m.2.tree)).any
      (fun m => !(members.map Prod.fst).contains m.1) = false := by
    simpa using fun key value there => ⟨value, there⟩
  rw [Value.tree, fields?, keyed?_memberTrees, Option.bind_some, known, Bool.and_false,
    if_neg Bool.false_ne_true]
  exact found members fun _ there => there

/-- A record is read back if it can be built of the trees of its fields, as far as there is room for
them. -/
theorem readRecord_object {names : List String} {members : List (String × Value)} {closed : Bool}
    {build : ℕ → List (Option Tree) → Option α} {a : α} (named : members.map Prod.fst = names)
    (nodup : names.Nodup)
    (built : ∀ room, build room (members.map fun m => some m.2.tree) =
      if Value.membersDepth members ≤ room then some a else none) (room : ℕ) :
    readRecord names closed build room (Value.object members).tree =
      if (Value.object members).depth ≤ room then some a else none := by
  subst named
  cases room with
  | zero => simp [readRecord, Value.depth]
  | succ room => simp [readRecord, fields?_object nodup, built, Value.depth]

/-- A field for which there is no room ends the reading. -/
theorem ite_some_bind (p : Prop) [Decidable p] (a : α) (next : α → Option β) :
    (if p then some a else none).bind next = if p then next a else none := by
  split <;> rfl

@[simp] theorem required_some (f : Format α) (room : ℕ) (tree : Tree) :
    required f room (some tree) = f.read room tree := rfl

/-! ## Maps from processes -/

section Maps

variable {f : Format α}

/-- The written forms of entries are read back one by one, and put into what was found before. -/
theorem readEntries_memberTrees {entries : List (ProcessId × α)}
    (h : ∀ e ∈ entries, f.Returns e.2) {members : List (String × Value)}
    (written : entries.mapM (fun e => (f.write e.2).map (e.1.name, ·)) = some members) :
    Value.membersIntegral members = true ∧ ∀ found room,
      readEntries f room found (Value.memberTrees members) =
        if Value.membersDepth members ≤ room then
          some (entries.foldl (fun m e => m.insert e.1 e.2) found)
        else none := by
  induction entries generalizing members with
  | nil =>
    cases written
    simp [Value.membersIntegral, Value.memberTrees, Value.membersDepth, readEntries]
  | cons e entries ih =>
    rw [List.mapM_cons] at written
    obtain ⟨member, first, written⟩ := Option.bind_eq_some_iff.1 written
    obtain ⟨members, others, written⟩ := Option.bind_eq_some_iff.1 written
    cases written
    obtain ⟨v, value, rfl⟩ := Option.map_eq_some_iff.1 first
    obtain ⟨integral, read⟩ := h e (.head _) v value
    obtain ⟨integrals, reads⟩ := ih (fun e' there => h e' (.tail _ there)) others
    refine ⟨by simp [Value.membersIntegral, integral, integrals], fun found room => ?_⟩
    rw [Value.memberTrees, readEntries, Json.text?_pieces, read, Value.membersDepth]
    simp only [Nat.max_le]
    by_cases fits : v.depth ≤ room
    · simp [fits, reads]
    · simp [fits]

theorem Returns.byProcess {m : SortedMap ProcessId α} (h : ∀ e ∈ m.entries, f.Returns e.2) :
    (Format.byProcess f).Returns m := by
  intro v written
  obtain ⟨members, entries, rfl⟩ := Option.map_eq_some_iff.1 written
  obtain ⟨integral, read⟩ := readEntries_memberTrees h entries
  have whole : m.entries.foldl (fun m e => m.insert e.1 e.2) ∅ = m := m.ofList_entries
  refine ⟨by simpa [Value.isIntegral] using integral, fun room => ?_⟩
  cases room with
  | zero => simp [Format.byProcess, Value.tree, Value.depth]
  | succ room => simp [Format.byProcess, Value.tree, Value.depth, read, whole]

/-- A map nests one deeper than what it holds. -/
theorem depth_byProcess_le_iff {m : SortedMap ProcessId α} {P : α → Prop} {room : ℕ}
    (h : ∀ e ∈ m.entries, ∀ v, f.write e.2 = some v → (v.depth ≤ room ↔ P e.2)) {v : Value}
    (written : (Format.byProcess f).write m = some v) :
    v.depth ≤ room + 1 ↔ ∀ e ∈ m.entries, P e.2 := by
  obtain ⟨members, entries, rfl⟩ := Option.map_eq_some_iff.1 written
  rw [Value.depth, Nat.add_le_add_iff_right]
  clear written
  generalize m.entries = l at h entries
  induction l generalizing members with
  | nil =>
    cases entries
    simp [Value.membersDepth]
  | cons e l ih =>
    rw [List.mapM_cons] at entries
    obtain ⟨member, first, entries⟩ := Option.bind_eq_some_iff.1 entries
    obtain ⟨members, others, entries⟩ := Option.bind_eq_some_iff.1 entries
    cases entries
    obtain ⟨v, value, rfl⟩ := Option.map_eq_some_iff.1 first
    rw [Value.membersDepth, Nat.max_le, h e (.head _) v value,
      ih members (fun b there => h b (.tail _ there)) others, List.forall_mem_cons]

end Maps

end AtomicCommit.Wire.Format

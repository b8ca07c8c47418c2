import AtomicCommit.Proofs.Json.Text

/-!
# Reading values back

The tree of a canonical value is read as that value if there is room for its nesting, and not at all
otherwise.

## Main definitions

* `Value.depth`: how many containers of a value are nested.

## Main results

* `Value.ofTree?_tree`, `Document.ofTree?_tree`: a value is read back just if there is room for it.
* `Value.depth_le_of_ofTree?`: what is read nests no deeper than there was room for.
-/

namespace AtomicCommit.Json

namespace Value

mutual

/-- The number of nested arrays and objects of a value. -/
def depth : Value → ℕ
  | .array items => itemsDepth items + 1
  | .object members => membersDepth members + 1
  | _ => 0

/-- The greatest depth of a list of values. -/
def itemsDepth : List Value → ℕ
  | [] => 0
  | item :: rest => max item.depth (itemsDepth rest)

/-- The greatest depth of the values of a list of members. -/
def membersDepth : List (String × Value) → ℕ
  | [] => 0
  | (_, value) :: rest => max value.depth (membersDepth rest)

end

/-- A key above all others is put last. -/
theorem place_of_below {key : String} {members : List (String × Value)}
    (below : ∀ m ∈ members, compare m.1 key = .lt) (value : Value) :
    place key value members = members ++ [(key, value)] := by
  induction members with
  | nil => rfl
  | cons member rest ih =>
    have gt : compare key member.1 = .gt := Std.OrientedCmp.gt_of_lt (below member (.head _))
    rw [place, gt]
    dsimp only
    rw [ih fun m there => below m (.tail _ there), List.cons_append]

/-- The first key of canonical members is below all others. -/
theorem below_of_membersCanonical {key : String} {value : Value} {members : List (String × Value)}
    (h : membersCanonical ((key, value) :: members) = true) :
    ∀ m ∈ members, compare key m.1 = .lt := by
  induction members generalizing key value with
  | nil => simp
  | cons member rest ih =>
    obtain ⟨k, v⟩ := member
    rw [membersCanonical, Bool.and_eq_true, Bool.and_eq_true] at h
    have lt : compare key k = .lt := by simpa [keyBelow] using h.1.1
    intro m there
    rcases List.mem_cons.1 there with rfl | later
    · exact lt
    · exact Std.TransCmp.lt_trans lt (ih h.2 m later)

mutual

/-- A canonical value is read back from its tree just if there is room for it. -/
theorem ofTree?_tree (v : Value) (canonical : v.isCanonical = true)
    (integral : v.isIntegral = true) (room : ℕ) :
    ofTree? room v.tree = if v.depth ≤ room then some v else none := by
  match v with
  | .null => simp [tree, ofTree?, depth]
  | .bool _ => simp [tree, ofTree?, depth]
  | .number (.integer n) => simp [tree, ofTree?, depth, toNumber?_integerText]
  | .number (.float _) => simp [isIntegral] at integral
  | .string _ => simp [tree, ofTree?, depth]
  | .array items =>
    rw [isCanonical] at canonical
    rw [isIntegral] at integral
    cases room with
    | zero => simp [tree, ofTree?, depth]
    | succ room =>
      simp only [tree, ofTree?, depth, itemsOfTrees?_itemTrees items canonical integral]
      split <;> simp_all
  | .object members =>
    rw [isCanonical] at canonical
    rw [isIntegral] at integral
    cases room with
    | zero => simp [tree, ofTree?, depth]
    | succ room =>
      have read := membersOfTrees?_memberTrees members canonical integral [] (by simp) room
      simp only [tree, ofTree?, depth, read]
      split <;> simp_all

theorem itemsOfTrees?_itemTrees (items : List Value) (canonical : itemsCanonical items = true)
    (integral : itemsIntegral items = true) (room : ℕ) :
    itemsOfTrees? room (itemTrees items) =
      if itemsDepth items ≤ room then some items else none := by
  match items with
  | [] => simp [itemTrees, itemsOfTrees?, itemsDepth]
  | item :: rest =>
    rw [itemsCanonical, Bool.and_eq_true] at canonical
    rw [itemsIntegral, Bool.and_eq_true] at integral
    simp only [itemTrees, itemsOfTrees?, itemsDepth, Nat.max_le,
      ofTree?_tree item canonical.1 integral.1,
      itemsOfTrees?_itemTrees rest canonical.2 integral.2]
    by_cases first : item.depth ≤ room <;> by_cases others : itemsDepth rest ≤ room <;>
      simp [first, others]

theorem membersOfTrees?_memberTrees (members : List (String × Value))
    (canonical : membersCanonical members = true) (integral : membersIntegral members = true)
    (found : List (String × Value)) (below : ∀ m ∈ found, ∀ n ∈ members, compare m.1 n.1 = .lt)
    (room : ℕ) :
    membersOfTrees? room found (memberTrees members) =
      if membersDepth members ≤ room then some (found ++ members) else none := by
  match members with
  | [] => simp [memberTrees, membersOfTrees?, membersDepth]
  | (key, value) :: rest =>
    -- The keys found so far are below all others, so each member is put behind them.
    have above := below_of_membersCanonical canonical
    rw [membersCanonical, Bool.and_eq_true, Bool.and_eq_true] at canonical
    rw [membersIntegral, Bool.and_eq_true] at integral
    have placed : place key value found = found ++ [(key, value)] :=
      place_of_below (fun m there => below m there _ (.head _)) value
    have below : ∀ m ∈ found ++ [(key, value)], ∀ n ∈ rest, compare m.1 n.1 = .lt := by
      intro m there n later
      rcases List.mem_append.1 there with old | new
      · exact below m old n (.tail _ later)
      · rw [List.mem_singleton.1 new]
        exact above n later
    simp only [memberTrees, membersOfTrees?, membersDepth, Nat.max_le, text?_pieces,
      ofTree?_tree value canonical.1.2 integral.1]
    by_cases first : value.depth ≤ room
    · rw [if_pos first]
      dsimp only
      rw [placed, membersOfTrees?_memberTrees rest canonical.2 integral.2 _ below]
      simp [first]
    · simp [first]

end

/-! ## What is read -/

theorem itemsDepth_le_iff {items : List Value} {room : ℕ} :
    itemsDepth items ≤ room ↔ ∀ v ∈ items, v.depth ≤ room := by
  induction items with
  | nil => simp [itemsDepth]
  | cons item rest ih => rw [itemsDepth, Nat.max_le, ih, List.forall_mem_cons]

theorem membersDepth_le_iff {members : List (String × Value)} {room : ℕ} :
    membersDepth members ≤ room ↔ ∀ m ∈ members, m.2.depth ≤ room := by
  induction members with
  | nil => simp [membersDepth]
  | cons member rest ih => rw [membersDepth, Nat.max_le, ih, List.forall_mem_cons]

/-- A member that is put in its place nests no deeper than it or the others do. -/
theorem membersDepth_place_le {key : String} {value : Value} {members : List (String × Value)}
    {room : ℕ} (fits : value.depth ≤ room) (h : membersDepth members ≤ room) :
    membersDepth (place key value members) ≤ room := by
  induction members with
  | nil => simpa [place, membersDepth] using fits
  | cons member rest ih =>
    obtain ⟨k, v⟩ := member
    rw [membersDepth, Nat.max_le] at h
    unfold place
    split
    · exact Nat.max_le.2 ⟨fits, Nat.max_le.2 h⟩
    · exact Nat.max_le.2 ⟨fits, h.2⟩
    · exact Nat.max_le.2 ⟨h.1, ih h.2⟩

mutual

/-- What is read nests no deeper than there was room for. -/
theorem depth_le_of_ofTree? {room : ℕ} {tree : Tree} {v : Value}
    (h : ofTree? room tree = some v) : v.depth ≤ room := by
  match tree with
  | .null => simp only [ofTree?, Option.some.injEq] at h; simp [← h, depth]
  | .bool _ => simp only [ofTree?, Option.some.injEq] at h; simp [← h, depth]
  | .number _ =>
    simp only [ofTree?, Option.map_eq_some_iff] at h
    obtain ⟨_, _, rfl⟩ := h
    simp [depth]
  | .string _ =>
    simp only [ofTree?, Option.map_eq_some_iff] at h
    obtain ⟨_, _, rfl⟩ := h
    simp [depth]
  | .array items =>
    match room with
    | 0 => simp [ofTree?] at h
    | room + 1 =>
      simp only [ofTree?, Option.map_eq_some_iff] at h
      obtain ⟨values, hv, rfl⟩ := h
      simpa [depth] using itemsDepth_le_of_itemsOfTrees? hv
  | .object members =>
    match room with
    | 0 => simp [ofTree?] at h
    | room + 1 =>
      simp only [ofTree?, Option.map_eq_some_iff] at h
      obtain ⟨found, hf, rfl⟩ := h
      simpa [depth] using membersDepth_le_of_membersOfTrees? (by simp [membersDepth]) hf

theorem itemsDepth_le_of_itemsOfTrees? {room : ℕ} {trees : List Tree} {values : List Value}
    (h : itemsOfTrees? room trees = some values) : itemsDepth values ≤ room := by
  match trees with
  | [] => simp only [itemsOfTrees?, Option.some.injEq] at h; simp [← h, itemsDepth]
  | tree :: rest =>
    unfold itemsOfTrees? at h
    split at h
    · contradiction
    · rename_i value hv
      obtain ⟨others, ho, rfl⟩ := Option.map_eq_some_iff.1 h
      exact Nat.max_le.2 ⟨depth_le_of_ofTree? hv, itemsDepth_le_of_itemsOfTrees? ho⟩

theorem membersDepth_le_of_membersOfTrees? {room : ℕ} {found : List (String × Value)}
    {trees : List (Literal × Tree)} {members : List (String × Value)}
    (hf : membersDepth found ≤ room) (h : membersOfTrees? room found trees = some members) :
    membersDepth members ≤ room := by
  match trees with
  | [] => simp only [membersOfTrees?, Option.some.injEq] at h; exact h ▸ hf
  | (_, tree) :: rest =>
    unfold membersOfTrees? at h
    split at h
    · rename_i hv
      exact membersDepth_le_of_membersOfTrees?
        (membersDepth_place_le (depth_le_of_ofTree? hv) hf) h
    · contradiction

end

end Value

/-- A document is read back from its tree just if there is room for it. -/
theorem Document.ofTree?_tree (d : Document) (integral : d.value.isIntegral = true) (room : ℕ) :
    Document.ofTree? room d.value.tree = if d.value.depth ≤ room then some d else none := by
  have read := d.value.ofTree?_tree d.canonical integral room
  rw [Document.ofTree?]
  split
  · rename_i value here
    rw [read] at here
    split at here
    · rename_i fits
      cases here
      rw [if_pos fits]
    · cases here
  · rename_i here
    rw [read] at here
    split at here
    · cases here
    · rename_i deep
      rw [if_neg deep]

/-- A document that is read nests no deeper than there was room for. -/
theorem Document.depth_le_of_ofTree? {room : ℕ} {tree : Tree} {d : Document}
    (h : Document.ofTree? room tree = some d) : d.value.depth ≤ room := by
  rw [Document.ofTree?] at h
  split at h
  · rename_i value read
    cases h
    exact Value.depth_le_of_ofTree? read
  · cases h

end AtomicCommit.Json

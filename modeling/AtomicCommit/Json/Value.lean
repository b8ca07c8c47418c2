import AtomicCommit.Json.Number

/-!
# JSON values

`Value` is the meaning of a JSON text. In a canonical value the keys of every object ascend, so
that none is repeated; `Document` is a canonical value, and the type of the data that operations
carry. Reading sorts the members of an object and keeps the last of equal keys.

## Main definitions

* `Value.isCanonical`, `Document`.
* `Document.ofTree?`: the value of a tree, if its nesting stays within a bound.
-/

namespace AtomicCommit.Json

/-- A JSON value. -/
inductive Value where
  /-- The null value. -/
  | null
  /-- A truth value. -/
  | bool (b : Bool)
  /-- A number. -/
  | number (n : Number)
  /-- A text. -/
  | string (text : String)
  /-- A list of values. -/
  | array (items : List Value)
  /-- Values by key, in the order listed. -/
  | object (members : List (String × Value))

namespace Value

instance : Inhabited Value := ⟨.null⟩

/-- Puts a member in its place, over any earlier one of the same key. -/
def place (key : String) (value : Value) : List (String × Value) → List (String × Value)
  | [] => [(key, value)]
  | (k, v) :: rest =>
    match compare key k with
    | .lt => (key, value) :: (k, v) :: rest
    | .eq => (key, value) :: rest
    | .gt => (k, v) :: place key value rest

/-- Whether the key is below the first key of the members. -/
def keyBelow (key : String) : List (String × Value) → Bool
  | [] => true
  | (k, _) :: _ => compare key k = .lt

mutual

/-- Whether the keys of every object in a value ascend. -/
def isCanonical : Value → Bool
  | .array items => itemsCanonical items
  | .object members => membersCanonical members
  | _ => true

/-- Whether all values of a list are canonical. -/
def itemsCanonical : List Value → Bool
  | [] => true
  | item :: rest => item.isCanonical && itemsCanonical rest

/-- Whether the keys of a list of members ascend and all its values are canonical. -/
def membersCanonical : List (String × Value) → Bool
  | [] => true
  | (key, value) :: rest => keyBelow key rest && value.isCanonical && membersCanonical rest

end

theorem keyBelow_place {key k : String} {value : Value} {members : List (String × Value)}
    (below : compare k key = .lt) (h : keyBelow k members = true) :
    keyBelow k (place key value members) = true := by
  cases members with
  | nil => simpa [place, keyBelow] using below
  | cons member rest =>
    obtain ⟨k', v'⟩ := member
    unfold place
    split
    · simpa [keyBelow] using below
    · simpa [keyBelow] using below
    · simpa [keyBelow] using h

theorem membersCanonical_place {key : String} {value : Value} {members : List (String × Value)}
    (hv : value.isCanonical = true) (h : membersCanonical members = true) :
    membersCanonical (place key value members) = true := by
  induction members with
  | nil => simp [place, membersCanonical, keyBelow, hv]
  | cons member rest ih =>
    obtain ⟨k, v⟩ := member
    have ⟨⟨below, hk⟩, tail⟩ : (keyBelow k rest = true ∧ v.isCanonical = true) ∧
        membersCanonical rest = true := by simpa [membersCanonical] using h
    unfold place
    split
    · rename_i lt
      simp only [membersCanonical, Bool.and_eq_true]
      exact ⟨⟨by simpa [keyBelow] using lt, hv⟩, ⟨below, hk⟩, tail⟩
    · rename_i eq
      have : key = k := Std.LawfulEqCmp.eq_of_compare eq
      subst this
      simp [membersCanonical, below, hv, tail]
    · rename_i gt
      simp [membersCanonical, keyBelow_place (Std.OrientedCmp.gt_iff_lt.1 gt) below, hk, ih tail]

mutual

/-- The value of a tree. A container takes one from the room for nesting, and needs room itself;
literals must be texts and numbers must not be too great. -/
def ofTree? (room : Nat) : Tree → Option Value
  | .null => some .null
  | .bool b => some (.bool b)
  | .number text => text.toNumber?.map .number
  | .string literal => literal.text?.map .string
  | .array items =>
    match room with
    | 0 => none
    | room + 1 => (itemsOfTrees? room items).map .array
  | .object members =>
    match room with
    | 0 => none
    | room + 1 => (membersOfTrees? room [] members).map .object

/-- The values of a list of trees. -/
def itemsOfTrees? (room : Nat) : List Tree → Option (List Value)
  | [] => some []
  | tree :: rest =>
    match ofTree? room tree with
    | none => none
    | some value => (itemsOfTrees? room rest).map (value :: ·)

/-- The members of a list of keys and trees, put into those found before them. -/
def membersOfTrees? (room : Nat) (found : List (String × Value)) :
    List (Literal × Tree) → Option (List (String × Value))
  | [] => some found
  | (key, tree) :: rest =>
    match key.text?, ofTree? room tree with
    | some key, some value => membersOfTrees? room (place key value found) rest
    | _, _ => none

end

mutual

theorem isCanonical_of_ofTree? {room : Nat} {tree : Tree} {value : Value}
    (h : ofTree? room tree = some value) : value.isCanonical = true := by
  match tree with
  | .null => simp only [ofTree?, Option.some.injEq] at h; simp [← h, isCanonical]
  | .bool _ => simp only [ofTree?, Option.some.injEq] at h; simp [← h, isCanonical]
  | .number _ =>
    simp only [ofTree?, Option.map_eq_some_iff] at h
    obtain ⟨_, _, rfl⟩ := h
    simp [isCanonical]
  | .string _ =>
    simp only [ofTree?, Option.map_eq_some_iff] at h
    obtain ⟨_, _, rfl⟩ := h
    simp [isCanonical]
  | .array items =>
    match room with
    | 0 => simp [ofTree?] at h
    | room + 1 =>
      simp only [ofTree?, Option.map_eq_some_iff] at h
      obtain ⟨values, hv, rfl⟩ := h
      simpa [isCanonical] using itemsCanonical_of_itemsOfTrees? hv
  | .object members =>
    match room with
    | 0 => simp [ofTree?] at h
    | room + 1 =>
      simp only [ofTree?, Option.map_eq_some_iff] at h
      obtain ⟨found, hf, rfl⟩ := h
      simpa [isCanonical] using membersCanonical_of_membersOfTrees? (by simp [membersCanonical]) hf

theorem itemsCanonical_of_itemsOfTrees? {room : Nat} {trees : List Tree} {values : List Value}
    (h : itemsOfTrees? room trees = some values) : itemsCanonical values = true := by
  match trees with
  | [] => simp only [itemsOfTrees?, Option.some.injEq] at h; simp [← h, itemsCanonical]
  | tree :: rest =>
    unfold itemsOfTrees? at h
    split at h
    · contradiction
    · rename_i value hv
      obtain ⟨others, ho, rfl⟩ := Option.map_eq_some_iff.1 h
      simp [itemsCanonical, isCanonical_of_ofTree? hv, itemsCanonical_of_itemsOfTrees? ho]

theorem membersCanonical_of_membersOfTrees? {room : Nat} {found : List (String × Value)}
    {trees : List (Literal × Tree)} {members : List (String × Value)}
    (hf : membersCanonical found = true) (h : membersOfTrees? room found trees = some members) :
    membersCanonical members = true := by
  match trees with
  | [] => simp only [membersOfTrees?, Option.some.injEq] at h; exact h ▸ hf
  | (_, tree) :: rest =>
    unfold membersOfTrees? at h
    split at h
    · rename_i hv
      exact membersCanonical_of_membersOfTrees?
        (membersCanonical_place (isCanonical_of_ofTree? hv) hf) h
    · contradiction

end

mutual

/-- Whether two values are the same. -/
def same : Value → Value → Bool
  | .null, .null => true
  | .bool a, .bool b => a == b
  | .number m, .number n => m = n
  | .string s, .string t => s == t
  | .array xs, .array ys => sameItems xs ys
  | .object xs, .object ys => sameMembers xs ys
  | _, _ => false

/-- Whether two lists of values are the same. -/
def sameItems : List Value → List Value → Bool
  | [], [] => true
  | x :: xs, y :: ys => x.same y && sameItems xs ys
  | _, _ => false

/-- Whether two lists of members are the same. -/
def sameMembers : List (String × Value) → List (String × Value) → Bool
  | [], [] => true
  | (k, x) :: xs, (l, y) :: ys => k == l && x.same y && sameMembers xs ys
  | _, _ => false

end

mutual

theorem same_self : ∀ x : Value, x.same x = true
  | .null => by simp [same]
  | .bool _ => by simp [same]
  | .number _ => by simp [same]
  | .string _ => by simp [same]
  | .array xs => by simpa [same] using sameItems_self xs
  | .object xs => by simpa [same] using sameMembers_self xs

theorem sameItems_self : ∀ xs : List Value, sameItems xs xs = true
  | [] => by simp [sameItems]
  | x :: xs => by simp [sameItems, same_self x, sameItems_self xs]

theorem sameMembers_self : ∀ xs : List (String × Value), sameMembers xs xs = true
  | [] => by simp [sameMembers]
  | (_, x) :: xs => by simp [sameMembers, same_self x, sameMembers_self xs]

end

mutual

theorem eq_of_same : ∀ {x y : Value}, x.same y = true → x = y
  | .null, y, h => by cases y <;> simp_all [same]
  | .bool _, y, h => by cases y <;> simp_all [same]
  | .number _, y, h => by cases y <;> simp_all [same]
  | .string _, y, h => by cases y <;> simp_all [same]
  | .array xs, y, h => by
    cases y with
    | array ys => simp [eq_of_sameItems (by simpa [same] using h : sameItems xs ys = true)]
    | _ => simp [same] at h
  | .object xs, y, h => by
    cases y with
    | object ys => simp [eq_of_sameMembers (by simpa [same] using h : sameMembers xs ys = true)]
    | _ => simp [same] at h

theorem eq_of_sameItems : ∀ {xs ys : List Value}, sameItems xs ys = true → xs = ys
  | [], ys, h => by cases ys <;> simp_all [sameItems]
  | x :: xs, ys, h => by
    cases ys with
    | nil => simp [sameItems] at h
    | cons y ys =>
      simp only [sameItems, Bool.and_eq_true] at h
      simp [eq_of_same h.1, eq_of_sameItems h.2]

theorem eq_of_sameMembers : ∀ {xs ys : List (String × Value)}, sameMembers xs ys = true → xs = ys
  | [], ys, h => by cases ys <;> simp_all [sameMembers]
  | (k, x) :: xs, ys, h => by
    cases ys with
    | nil => simp [sameMembers] at h
    | cons member ys =>
      obtain ⟨l, y⟩ := member
      simp only [sameMembers, Bool.and_eq_true, beq_iff_eq] at h
      simp [h.1.1, eq_of_same h.1.2, eq_of_sameMembers h.2]

end

instance : DecidableEq Value := fun x y =>
  if h : x.same y = true then .isTrue (eq_of_same h)
  else .isFalse fun e => h (e ▸ same_self x)

/-- An object of the given members, sorted. -/
def ofMembers (members : List (String × Value)) : Value :=
  .object (members.foldl (fun found m => place m.1 m.2 found) [])

end Value

/-- A value in which the keys of every object ascend. -/
structure Document where
  /-- The value itself. -/
  value : Value
  /-- The keys of its objects ascend. -/
  canonical : value.isCanonical = true := by rfl
deriving DecidableEq

namespace Document

/-- The null document. -/
def null : Document := { value := .null }

instance : Inhabited Document := ⟨null⟩

/-- The document of a tree that nests at most `room` containers. -/
def ofTree? (room : Nat) (tree : Tree) : Option Document :=
  match h : Value.ofTree? room tree with
  | some value => some ⟨value, Value.isCanonical_of_ofTree? h⟩
  | none => none

end Document

end AtomicCommit.Json

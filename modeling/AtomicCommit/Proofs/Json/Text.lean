import AtomicCommit.Json.Writer
import Mathlib.Data.List.Basic

/-!
# Reading what is written

The compact text of a value is read as one tree, which keeps each byte of a literal as one piece.

## Main definitions

* `Value.tree`: the tree of the text of a value whose numbers are integers.

## Main results

* `literalOnto_literal`, `text?_pieces`: a literal is read back.
* `readNumber?_text`, `toNumber?_integerText`: an integer is read back.
* `Tree.ofBytes?_render`: the text of a value is its tree.
-/

namespace AtomicCommit

namespace Text

theorem utf8_ofList (l : List Char) : utf8 (String.ofList l) = l.flatMap String.utf8EncodeChar := by
  simp [utf8, List.utf8Encode]

theorem utf8_append (s t : String) : utf8 (s ++ t) = utf8 s ++ utf8 t := by
  simp [utf8]

end Text

namespace Json

/-! ## Literals -/

/-- The piece that a byte of a text is written as. -/
def pieceOf (b : UInt8) : Piece :=
  if b < 0x20 ∧ b ∉ [0x08, 0x09, 0x0a, 0x0c, 0x0d] then .unit b.toNat else .octet b

/-- The pieces that a text is written as. -/
def pieces (text : String) : Literal := (Text.utf8 text).map pieceOf

section Pieces

variable (read : Literal) (e : UInt8) (rest : List UInt8)

theorem literalOnto_octet {b : UInt8} (plain : 0x20 ≤ b) (quote : b ≠ byte '"')
    (escape : b ≠ byte '\\') :
    literalOnto read (b :: e :: rest) = literalOnto (.octet b :: read) (e :: rest) := by
  rw [literalOnto.eq_def]
  dsimp only
  rw [if_neg quote, if_neg escape, if_neg (UInt8.not_lt.2 plain)]

theorem literalOnto_escape {letter b : UInt8} (stands : escaped? letter = some b)
    (unit : letter ≠ byte 'u') :
    literalOnto read (0x5c :: letter :: rest) = literalOnto (.octet b :: read) rest := by
  rw [literalOnto.eq_def]
  dsimp only
  rw [if_neg (by decide), if_pos (by decide), if_neg unit, stands]

theorem literalOnto_unit {a b c d : UInt8} {code : ℕ} (unit : codeUnit? a b c d = some code) :
    literalOnto read (0x5c :: byte 'u' :: a :: b :: c :: d :: rest) =
      literalOnto (.unit code :: read) rest := by
  rw [literalOnto.eq_def]
  dsimp only
  rw [if_neg (by decide), if_pos (by decide), if_pos (by decide), unit]

theorem codeUnit?_hexByte {b : UInt8} (control : ¬0x20 ≤ b) :
    codeUnit? 0x30 0x30 (hexByte (b / 16)) (hexByte (b % 16)) = some b.toNat := by
  have all : ∀ n < 32, codeUnit? 0x30 0x30 (hexByte (UInt8.ofNat n / 16))
      (hexByte (UInt8.ofNat n % 16)) = some n := by
    decide
  simpa using all b.toNat (by simpa [UInt8.le_iff_toNat_le] using control)

/-- What stands for one byte is read as one piece. -/
theorem literalOnto_literalByte (b : UInt8) :
    literalOnto read (literalByte b ++ e :: rest) =
      literalOnto (pieceOf b :: read) (e :: rest) := by
  unfold literalByte
  by_cases special : b = 0x22 ∨ b = 0x5c
  · rw [if_pos special]
    rcases special with rfl | rfl <;> exact literalOnto_escape _ _ rfl (by decide)
  rw [if_neg special]
  by_cases plain : 0x20 ≤ b
  · have octet : pieceOf b = .octet b := if_neg fun h => UInt8.not_lt.2 plain h.1
    rw [if_pos plain, octet]
    exact literalOnto_octet _ _ _ plain (fun h => special (.inl h)) fun h => special (.inr h)
  rw [if_neg plain]
  by_cases named : b ∈ [0x08, 0x09, 0x0a, 0x0c, 0x0d]
  · simp only [List.mem_cons, List.not_mem_nil, or_false] at named
    rcases named with rfl | rfl | rfl | rfl | rfl <;>
      exact literalOnto_escape _ _ rfl (by decide)
  · have unit : pieceOf b = .unit b.toNat := if_pos ⟨UInt8.not_le.1 plain, named⟩
    simp only [List.mem_cons, List.not_mem_nil, or_false, not_or] at named
    obtain ⟨h₁, h₂, h₃, h₄, h₅⟩ := named
    rw [if_neg h₁, if_neg h₂, if_neg h₃, if_neg h₄, if_neg h₅, unit]
    exact literalOnto_unit _ _ (codeUnit?_hexByte plain)

end Pieces

/-- A literal is read up to its closing quote. -/
theorem literalOnto_literal (read : Literal) (bytes rest : List UInt8) :
    literalOnto read (bytes.flatMap literalByte ++ 0x22 :: rest) =
      some (read.reverse ++ bytes.map pieceOf, rest) := by
  induction bytes generalizing read with
  | nil =>
    have quote : (0x22 : UInt8) = byte '"' := rfl
    cases rest <;> simp [literalOnto.eq_def, quote]
  | cons b bytes ih =>
    -- A byte in a literal is told from its end only if another byte follows it; the quote does.
    obtain ⟨e, tail, ends⟩ : ∃ e tail, bytes.flatMap literalByte ++ 0x22 :: rest = e :: tail :=
      List.exists_cons_of_ne_nil (by simp)
    rw [List.flatMap_cons, List.append_assoc, ends, literalOnto_literalByte, ← ends, ih]
    simp

theorem encodePoint_control {b : UInt8} (control : b < 0x20) : encodePoint b.toNat = [b] := by
  have all : ∀ n < 32, encodePoint n = [UInt8.ofNat n] := by decide
  simpa using all b.toNat (by simpa [UInt8.lt_iff_toNat_lt] using control)

/-- The bytes of the pieces are those they stand for. -/
theorem bytesOnto_pieces (found bytes : List UInt8) :
    Literal.bytesOnto found (bytes.map pieceOf) = some (found.reverse ++ bytes) := by
  induction bytes generalizing found with
  | nil => simp [Literal.bytesOnto]
  | cons b bytes ih =>
    rw [List.map_cons, pieceOf]
    split
    · rename_i control
      have low : b.toNat < 0xd800 := by have := b.toNat_lt; omega
      rw [Literal.bytesOnto.eq_def]
      dsimp only
      rw [if_pos (.inl low), encodePoint_control control.1, ih]
      simp
    · rw [Literal.bytesOnto, ih]
      simp

@[simp] theorem text?_pieces (text : String) : Literal.text? (pieces text) = some text := by
  simp [Literal.text?, pieces, bytesOnto_pieces, Text.ofUtf8?_utf8]

/-! ## Integers -/

/-- The decimal digits of a number, the most significant first. -/
def digitsOf (n : ℕ) : List ℕ := if n < 10 then [n] else digitsOf (n / 10) ++ [n % 10]

theorem toDigits_eq (n : ℕ) : Nat.toDigits 10 n = (digitsOf n).map Nat.digitChar := by
  induction n using Nat.strongRecOn with
  | ind n ih =>
    rw [digitsOf]
    split
    · rename_i small
      simp [Nat.toDigits_of_lt_base small]
    · rename_i large
      rw [Nat.toDigits_of_base_le (by decide) (by omega), ih (n / 10) (by omega)]
      simp

theorem lt_ten_of_mem {n d : ℕ} (h : d ∈ digitsOf n) : d < 10 := by
  induction n using Nat.strongRecOn with
  | ind n ih =>
    rw [digitsOf] at h
    split at h
    · rw [List.mem_singleton] at h
      omega
    · rcases List.mem_append.1 h with higher | lowest
      · exact ih (n / 10) (by omega) higher
      · rw [List.mem_singleton] at lowest
        omega

@[simp] theorem wholeValue_digitsOf (n : ℕ) : NumberText.wholeValue (digitsOf n) = n := by
  induction n using Nat.strongRecOn with
  | ind n ih =>
    rw [digitsOf]
    split
    · simp [NumberText.wholeValue]
    · have higher := ih (n / 10) (by omega)
      rw [NumberText.wholeValue] at higher ⊢
      rw [List.foldl_append, higher, List.foldl_cons, List.foldl_nil]
      omega

/-- No zero stands before other digits. -/
theorem digitsOf_cases (n : ℕ) :
    digitsOf n = [0] ∨ ∃ d ds, digitsOf n = d :: ds ∧ d ≠ 0 := by
  induction n using Nat.strongRecOn with
  | ind n ih =>
    rw [digitsOf]
    split
    · by_cases zero : n = 0
      · exact .inl (by rw [zero])
      · exact .inr ⟨n, [], rfl, zero⟩
    · rcases ih (n / 10) (by omega) with zero | ⟨d, ds, same, nonzero⟩
      · have value := wholeValue_digitsOf (n / 10)
        rw [zero] at value
        simp only [NumberText.wholeValue, List.foldl_cons, List.foldl_nil] at value
        omega
      · exact .inr ⟨d, ds ++ [n % 10], by rw [same]; rfl, nonzero⟩

/-- The byte of a decimal digit. -/
def digitByte (d : ℕ) : UInt8 := UInt8.ofNat (48 + d)

theorem utf8_repr (n : ℕ) : Text.utf8 (Nat.repr n) = (digitsOf n).map digitByte := by
  have one : ∀ d < 10, String.utf8EncodeChar (Nat.digitChar d) = [digitByte d] := by decide
  rw [Nat.repr, Text.utf8_ofList, toDigits_eq, List.flatMap_map, ← List.flatMap_pure_eq_map]
  exact List.flatMap_congr fun d there => one d (lt_ten_of_mem there)

/-- A value ends here: nothing follows it, or a comma or a closing bracket or brace. -/
def Closes (rest : List UInt8) : Prop := ∀ b ∈ rest.head?, b = 0x2c ∨ b = 0x5d ∨ b = 0x7d

theorem Closes.nil : Closes [] := by simp [Closes]

theorem Closes.cons {b : UInt8} (h : b = 0x2c ∨ b = 0x5d ∨ b = 0x7d) (rest : List UInt8) :
    Closes (b :: rest) := by
  simpa [Closes] using h

theorem digitsOnto_digitByte {ds : List ℕ} (small : ∀ d ∈ ds, d < 10) (read : List ℕ)
    {rest : List UInt8} (closes : Closes rest) :
    digitsOnto read (ds.map digitByte ++ rest) = (read.reverse ++ ds, rest) := by
  have one : ∀ d < 10, digit? (digitByte d) = some d := by decide
  induction ds generalizing read with
  | nil =>
    cases rest with
    | nil => simp [digitsOnto]
    | cons b rest =>
      have none : digit? b = none := by
        rcases closes b rfl with rfl | rfl | rfl <;> rfl
      simp [digitsOnto, none]
  | cons d ds ih =>
    rw [List.map_cons, List.cons_append, digitsOnto, one d (small d (.head _))]
    dsimp only
    rw [ih (fun d' there => small d' (.tail _ there))]
    simp

theorem readFraction_of_closes {rest : List UInt8} (closes : Closes rest) :
    readFraction rest = ([], rest) := by
  cases rest with
  | nil => rfl
  | cons b rest => rcases closes b rfl with rfl | rfl | rfl <;> rfl

theorem readExponent_of_closes {rest : List UInt8} (closes : Closes rest) :
    readExponent rest = (none, rest) := by
  cases rest with
  | nil => rfl
  | cons b rest => rcases closes b rfl with rfl | rfl | rfl <;> rfl

/-- The digits of an integer, with its sign. -/
def integerText (z : Int) : NumberText where
  negative := decide (z < 0)
  whole := digitsOf z.natAbs
  fraction := []
  exponent := none

theorem readWhole?_digitsOf (n : ℕ) {rest : List UInt8} (closes : Closes rest) :
    readWhole? ((digitsOf n).map digitByte ++ rest) = some (digitsOf n, rest) := by
  have read : readDigits ((digitsOf n).map digitByte ++ rest) = (digitsOf n, rest) :=
    digitsOnto_digitByte (fun _ there => lt_ten_of_mem there) [] closes
  rcases digitsOf_cases n with zero | ⟨d, ds, same, nonzero⟩
  · rw [zero] at read ⊢
    rw [readWhole?, read]
    rfl
  · rw [same] at read ⊢
    rw [readWhole?, read]
    split
    · rename_i h
      cases h
    · rename_i h
      cases h
      exact absurd rfl nonzero
    · rfl

theorem digitsOf_eq_cons (n : ℕ) : ∃ d ds, digitsOf n = d :: ds := by
  rcases digitsOf_cases n with zero | ⟨d, ds, same, -⟩
  · exact ⟨0, [], zero⟩
  · exact ⟨d, ds, same⟩

theorem utf8_ofNat (n : ℕ) :
    Text.utf8 (toString (Int.ofNat n)) = (digitsOf n).map digitByte := utf8_repr n

theorem utf8_negSucc (n : ℕ) : Text.utf8 (toString (Int.negSucc n)) =
    byte '-' :: (digitsOf (n + 1)).map digitByte := by
  show Text.utf8 ("-" ++ Nat.repr (n + 1)) = _
  rw [Text.utf8_append, utf8_repr]
  rfl

/-- The text of an integer is read as its digits. -/
theorem readNumber?_text (z : Int) {rest : List UInt8} (closes : Closes rest) :
    readNumber? (Text.utf8 (toString z) ++ rest) = some (integerText z, rest) := by
  have ends := readExponent_of_closes closes
  cases z with
  | ofNat n =>
    obtain ⟨d, ds, same⟩ := digitsOf_eq_cons n
    have unsigned : digitByte d ≠ byte '-' := by
      have all : ∀ d < 10, digitByte d ≠ byte '-' := by decide
      have there : d ∈ digitsOf n := by simp [same]
      exact all d (lt_ten_of_mem there)
    have read := readWhole?_digitsOf n closes
    rw [utf8_ofNat]
    rw [same, List.map_cons, List.cons_append] at read ⊢
    rw [readNumber?]
    dsimp only
    rw [if_neg unsigned, read]
    simp [readFraction_of_closes closes, ends, integerText, same]
  | negSucc n =>
    rw [utf8_negSucc, List.cons_append, readNumber?]
    dsimp only
    rw [if_pos rfl, readWhole?_digitsOf _ closes]
    simp [readFraction_of_closes closes, ends, integerText, Int.negSucc_lt_zero]

@[simp] theorem ofInt?_value (n : Integer) : Integer.ofInt? n.value = some n :=
  dif_pos ⟨n.le_value, n.value_lt⟩

theorem value_of_ofInt? {z : Int} {n : Integer} (h : Integer.ofInt? z = some n) : n.value = z := by
  rw [Integer.ofInt?] at h
  split at h
  · rw [← Option.some.inj h]
  · cases h

/-- The digits of an integer are its value. -/
theorem toNumber?_integerText (n : Integer) :
    (integerText n.value).toNumber? = some (.integer n) := by
  have read := ofInt?_value n
  by_cases negative : n.value < 0
  · have value : -(n.value.natAbs : Int) = n.value := by omega
    have nonzero : n.value.natAbs ≠ 0 := by omega
    simp only [NumberText.toNumber?, integerText, wholeValue_digitsOf, negative, nonzero, value,
      decide_true, if_true, read]
    simp
  · have value : (n.value.natAbs : Int) = n.value := by omega
    simp only [NumberText.toNumber?, integerText, wholeValue_digitsOf, negative, value,
      decide_false, read]
    simp

/-! ## Values -/

namespace Value

mutual

/-- Whether all numbers of a value are integers. -/
def isIntegral : Value → Bool
  | .number (.float _) => false
  | .array items => itemsIntegral items
  | .object members => membersIntegral members
  | _ => true

/-- Whether all numbers of a list of values are integers. -/
def itemsIntegral : List Value → Bool
  | [] => true
  | item :: rest => item.isIntegral && itemsIntegral rest

/-- Whether all numbers of a list of members are integers. -/
def membersIntegral : List (String × Value) → Bool
  | [] => true
  | (_, value) :: rest => value.isIntegral && membersIntegral rest

end

mutual

/-- The tree of the text of a value whose numbers are integers. -/
def tree : Value → Tree
  | .null => .null
  | .bool b => .bool b
  | .number (.integer n) => .number (integerText n.value)
  | .number (.float _) => .null
  | .string text => .string (pieces text)
  | .array items => .array (itemTrees items)
  | .object members => .object (memberTrees members)

/-- The trees of the texts of a list of values. -/
def itemTrees : List Value → List Tree
  | [] => []
  | item :: rest => item.tree :: itemTrees rest

/-- The literals and trees of the texts of a list of members. -/
def memberTrees : List (String × Value) → List (Literal × Tree)
  | [] => []
  | (key, value) :: rest => (pieces key, value.tree) :: memberTrees rest

end

/-- The text of an integer starts with a digit or a sign. -/
theorem integer_cons (z : Int) :
    ∃ b rest, Text.utf8 (toString z) = b :: rest ∧ isBlank b = false ∧
      b ∉ [byte '"', byte '[', byte ']', byte '\x7b', byte 'n', byte 't', byte 'f'] := by
  have digit : ∀ d < 10, isBlank (digitByte d) = false ∧ digitByte d ∉
      [byte '"', byte '[', byte ']', byte '\x7b', byte 'n', byte 't', byte 'f'] := by
    decide
  cases z with
  | ofNat n =>
    obtain ⟨d, ds, same⟩ := digitsOf_eq_cons n
    have there : d ∈ digitsOf n := by simp [same]
    refine ⟨digitByte d, ds.map digitByte, ?_, digit d (lt_ten_of_mem there)⟩
    rw [utf8_ofNat, same, List.map_cons]
  | negSucc n => exact ⟨_, _, utf8_negSucc n, rfl, by decide⟩

/-- No text of a value starts with a blank or a closing bracket. -/
theorem render_cons (v : Value) (integral : v.isIntegral = true) :
    ∃ b rest, v.render = b :: rest ∧ isBlank b = false ∧ b ≠ byte ']' := by
  cases v with
  | null => exact ⟨_, _, rfl, rfl, by decide⟩
  | bool b => cases b <;> exact ⟨_, _, rfl, rfl, by decide⟩
  | number n =>
    cases n with
    | integer n =>
      obtain ⟨b, rest, text, visible, other⟩ := integer_cons n.value
      exact ⟨b, rest, text, visible, fun same => other (by simp [same])⟩
    | float _ => simp [isIntegral] at integral
  | string text => exact ⟨_, _, rfl, rfl, by decide⟩
  | array items => exact ⟨_, _, by rw [render], rfl, by decide⟩
  | object members => exact ⟨_, _, by rw [render], rfl, by decide⟩

theorem skipBlanks_cons {b : UInt8} (visible : isBlank b = false) (rest : List UInt8) :
    skipBlanks (b :: rest) = b :: rest := by
  simp [skipBlanks, visible]

theorem renderItems_cons (item : Value) (items : List Value) :
    renderItems (item :: items) =
      item.render ++ if items = [] then [0x5d] else 0x2c :: renderItems items := by
  cases items with
  | nil => rfl
  | cons next items => rfl

theorem renderMembers_cons (key : String) (value : Value) (members : List (String × Value)) :
    renderMembers ((key, value) :: members) = literal key ++ 0x3a :: (value.render ++
      if members = [] then [0x7d] else 0x2c :: renderMembers members) := by
  cases members with
  | nil => simp [renderMembers]
  | cons next members => simp [renderMembers]

section Reading

variable {fuel : ℕ} {b : UInt8} {s rest : List UInt8}

theorem readValue_integer {z : Int} (closes : Closes rest) :
    readValue (fuel + 1) (Text.utf8 (toString z) ++ rest) =
      some (.number (integerText z), rest) := by
  obtain ⟨b, tail, text, visible, other⟩ := integer_cons z
  have read := readNumber?_text z closes
  simp only [List.mem_cons, List.not_mem_nil, or_false, not_or] at other
  obtain ⟨quote, bracket, -, brace, n, t, f⟩ := other
  rw [text, List.cons_append] at read ⊢
  rw [readValue, skipBlanks_cons visible]
  dsimp only
  rw [if_neg quote, if_neg bracket, if_neg brace, if_neg n, if_neg t, if_neg f, read]
  rfl

theorem readValue_literal (text : String) :
    readValue (fuel + 1) (literal text ++ rest) = some (.string (pieces text), rest) := by
  have read := literalOnto_literal [] (Text.utf8 text) rest
  have split : literal text ++ rest =
      0x22 :: ((Text.utf8 text).flatMap literalByte ++ 0x22 :: rest) := by
    simp [literal]
  rw [split, readValue, skipBlanks_cons rfl]
  dsimp only
  rw [if_pos (show (0x22 : UInt8) = byte '"' from rfl), read]
  rfl

theorem readValue_bracket (visible : isBlank b = false) (filled : b ≠ byte ']') :
    readValue (fuel + 1) (0x5b :: b :: s) =
      (readItems fuel [] (b :: s)).map fun r => (.array r.1, r.2) := by
  rw [readValue, skipBlanks_cons rfl]
  dsimp only
  rw [if_neg (by decide), if_pos (by decide), skipBlanks_cons visible]
  dsimp only
  rw [if_neg filled]

theorem readValue_brace (visible : isBlank b = false) (filled : b ≠ byte '\x7d') :
    readValue (fuel + 1) (0x7b :: b :: s) =
      (readMembers fuel [] (b :: s)).map fun r => (.object r.1, r.2) := by
  rw [readValue, skipBlanks_cons rfl]
  dsimp only
  rw [if_neg (by decide), if_neg (by decide), if_pos (by decide), skipBlanks_cons visible]
  dsimp only
  rw [if_neg filled]

/-- An item is read, and the last if a bracket follows. -/
theorem readItems_last {read : List Tree} {item : Tree}
    (value : readValue fuel s = some (item, 0x5d :: rest)) :
    readItems (fuel + 1) read s = some ((item :: read).reverse, rest) := by
  rw [readItems, value]
  rfl

/-- An item is read, and others if a comma follows. -/
theorem readItems_next {read : List Tree} {item : Tree}
    (value : readValue fuel s = some (item, 0x2c :: rest)) :
    readItems (fuel + 1) read s = readItems fuel (item :: read) rest := by
  rw [readItems, value]
  rfl

section Members

variable {read : List (Literal × Tree)} {key : String} {value : Tree}

theorem readMembers_literal : readMembers (fuel + 1) read (literal key ++ 0x3a :: s) =
    match readValue fuel s with
    | none => none
    | some (value, rest) =>
      match skipBlanks rest with
      | [] => none
      | b :: rest =>
        if b = byte ',' then readMembers fuel ((pieces key, value) :: read) rest
        else if b = byte '\x7d' then some (((pieces key, value) :: read).reverse, rest)
        else none := by
  have name := literalOnto_literal [] (Text.utf8 key) (0x3a :: s)
  have split : literal key ++ 0x3a :: s =
      0x22 :: ((Text.utf8 key).flatMap literalByte ++ 0x22 :: 0x3a :: s) := by
    simp [literal]
  rw [split, readMembers, skipBlanks_cons rfl]
  dsimp only
  rw [if_neg (by decide), name]
  dsimp only
  rw [skipBlanks_cons rfl]
  dsimp only
  rw [if_neg (by decide)]
  rfl

/-- A member is read, and the last if a brace follows. -/
theorem readMembers_last (found : readValue fuel s = some (value, 0x7d :: rest)) :
    readMembers (fuel + 1) read (literal key ++ 0x3a :: s) =
      some (((pieces key, value) :: read).reverse, rest) := by
  rw [readMembers_literal, found]
  rfl

/-- A member is read, and others if a comma follows. -/
theorem readMembers_next (found : readValue fuel s = some (value, 0x2c :: rest)) :
    readMembers (fuel + 1) read (literal key ++ 0x3a :: s) =
      readMembers fuel ((pieces key, value) :: read) rest := by
  rw [readMembers_literal, found]
  rfl

end Members

/-- Texts for which the steps suffice are read as their trees. A value is read if nothing follows
that could belong to it; an array or an object is read up to its end. -/
structure ReadsBack (fuel : ℕ) : Prop where
  /-- Values. -/
  value : ∀ v : Value, v.isIntegral = true → 2 * v.render.length ≤ fuel → ∀ rest, Closes rest →
    readValue fuel (v.render ++ rest) = some (v.tree, rest)
  /-- The items of an array. -/
  items : ∀ items : List Value, items ≠ [] → itemsIntegral items = true →
    2 * (renderItems items).length ≤ fuel → ∀ read rest,
    readItems fuel read (renderItems items ++ rest) = some (read.reverse ++ itemTrees items, rest)
  /-- The members of an object. -/
  members : ∀ members : List (String × Value), members ≠ [] → membersIntegral members = true →
    2 * (renderMembers members).length ≤ fuel → ∀ read rest,
    readMembers fuel read (renderMembers members ++ rest) =
      some (read.reverse ++ memberTrees members, rest)

namespace ReadsBack

theorem readValue (h : ReadsBack fuel) (v : Value) (integral : v.isIntegral = true)
    (enough : 2 * v.render.length ≤ fuel + 1) (closes : Closes rest) :
    Json.readValue (fuel + 1) (v.render ++ rest) = some (v.tree, rest) := by
  cases v with
  | null => rfl
  | bool b => cases b <;> rfl
  | number n =>
    cases n with
    | integer n => exact readValue_integer closes
    | float _ => simp [isIntegral] at integral
  | string s => exact readValue_literal s
  | array items =>
    cases items with
    | nil => rfl
    | cons item items =>
      rw [isIntegral] at integral
      rw [render, List.length_cons] at enough
      have read := h.items _ (List.cons_ne_nil item items) integral (by omega) [] rest
      rw [itemsIntegral, Bool.and_eq_true] at integral
      obtain ⟨b, tail, text, visible, filled⟩ := item.render_cons integral.1
      rw [renderItems_cons, text] at read
      rw [render, renderItems_cons, text]
      simp only [List.cons_append] at read ⊢
      rw [readValue_bracket visible filled, read]
      rfl
  | object members =>
    cases members with
    | nil => rfl
    | cons member members =>
      rw [isIntegral] at integral
      rw [render, List.length_cons] at enough
      have read := h.members _ (List.cons_ne_nil member members) integral (by omega) [] rest
      rw [renderMembers_cons, literal] at read
      rw [render, renderMembers_cons, literal]
      simp only [List.cons_append] at read ⊢
      rw [readValue_brace rfl (by decide), read]
      rfl

theorem readItems (h : ReadsBack fuel) (item : Value) (items : List Value)
    (integral : itemsIntegral (item :: items) = true)
    (enough : 2 * (renderItems (item :: items)).length ≤ fuel + 1) (read : List Tree) :
    Json.readItems (fuel + 1) read (renderItems (item :: items) ++ rest) =
      some (read.reverse ++ itemTrees (item :: items), rest) := by
  rw [itemsIntegral, Bool.and_eq_true] at integral
  rw [renderItems_cons, List.length_append] at enough
  rw [renderItems_cons, List.append_assoc]
  by_cases last : items = []
  · rw [if_pos last, List.length_singleton] at enough
    have value := h.value item integral.1 (by omega) _ (Closes.cons (.inr (.inl rfl)) rest)
    rw [if_pos last, List.singleton_append, readItems_last value, last]
    simp [itemTrees]
  · rw [if_neg last, List.length_cons] at enough
    have value := h.value item integral.1 (by omega) _
      (Closes.cons (.inl rfl) (renderItems items ++ rest))
    rw [if_neg last, List.cons_append, readItems_next value,
      h.items items last integral.2 (by omega)]
    simp [itemTrees]

theorem readMembers (h : ReadsBack fuel) (key : String) (value : Value)
    (members : List (String × Value)) (integral : membersIntegral ((key, value) :: members) = true)
    (enough : 2 * (renderMembers ((key, value) :: members)).length ≤ fuel + 1)
    (read : List (Literal × Tree)) :
    Json.readMembers (fuel + 1) read (renderMembers ((key, value) :: members) ++ rest) =
      some (read.reverse ++ memberTrees ((key, value) :: members), rest) := by
  rw [membersIntegral, Bool.and_eq_true] at integral
  rw [renderMembers_cons, List.length_append, List.length_cons, List.length_append] at enough
  rw [renderMembers_cons, List.append_assoc, List.cons_append, List.append_assoc]
  by_cases last : members = []
  · rw [if_pos last, List.length_singleton] at enough
    have found := h.value value integral.1 (by omega) _ (Closes.cons (.inr (.inr rfl)) rest)
    rw [if_pos last, List.singleton_append, readMembers_last found, last]
    simp [memberTrees]
  · rw [if_neg last, List.length_cons] at enough
    have found := h.value value integral.1 (by omega) _
      (Closes.cons (.inl rfl) (renderMembers members ++ rest))
    rw [if_neg last, List.cons_append, readMembers_next found,
      h.members members last integral.2 (by omega)]
    simp [memberTrees]

end ReadsBack

theorem readsBack (fuel : ℕ) : ReadsBack fuel := by
  -- Each of the three functions calls another with one step less. Two steps for a byte are enough:
  -- an array or object spends one on itself and one on each item, of which none is empty.
  induction fuel with
  | zero =>
    constructor
    · intro v integral enough
      obtain ⟨b, tail, text, -⟩ := v.render_cons integral
      simp [text] at enough
    · intro items filled _ enough
      obtain ⟨item, items, rfl⟩ := List.exists_cons_of_ne_nil filled
      rw [renderItems_cons] at enough
      split at enough <;> simp at enough
    · intro members filled _ enough
      obtain ⟨⟨key, value⟩, members, rfl⟩ := List.exists_cons_of_ne_nil filled
      rw [renderMembers_cons] at enough
      simp at enough
  | succ fuel ih =>
    constructor
    · exact fun v integral enough rest closes => ih.readValue v integral enough closes
    · intro items filled integral enough read rest
      obtain ⟨item, items, rfl⟩ := List.exists_cons_of_ne_nil filled
      exact ih.readItems item items integral enough read
    · intro members filled integral enough read rest
      obtain ⟨⟨key, value⟩, members, rfl⟩ := List.exists_cons_of_ne_nil filled
      exact ih.readMembers key value members integral enough read

end Reading

end Value

/-- The text of a value is its tree. -/
theorem Tree.ofBytes?_render (v : Value) (integral : v.isIntegral = true) :
    Tree.ofBytes? v.render = some v.tree := by
  have read := (Value.readsBack _).value v integral (Nat.le_add_right _ 2) [] .nil
  rw [List.append_nil] at read
  rw [Tree.ofBytes?, read]
  rfl

end Json

end AtomicCommit

import AtomicCommit.Text.Hex

/-!
# Transaction identifiers

A transaction is named by 128 bits, written as a UUID: hexadecimal digits in groups of 8, 4, 4, 4
and 12 joined by hyphens. Reading takes the hyphenated form, also in braces or after the prefix
`urn:uuid:`, and the bare 32 digits; writing gives the hyphenated form in lower case.
-/

namespace AtomicCommit

/-- The identifier of a transaction. -/
structure TransactionId where
  /-- The 128 bits of the identifier. -/
  bits : BitVec 128
deriving DecidableEq, Inhabited

namespace TransactionId

instance : Ord TransactionId := ⟨fun a b => compare a.bits b.bits⟩

theorem compare_def (a b : TransactionId) : compare a b = compare a.bits b.bits := rfl

instance : Std.TransOrd TransactionId where
  eq_swap := by simp only [compare_def]; exact Std.OrientedCmp.eq_swap
  isLE_trans := by simp only [compare_def]; exact Std.TransCmp.isLE_trans

instance : Std.LawfulEqOrd TransactionId where
  compare_self := by simp
  eq_of_compare {a b} h := by
    cases a; cases b; exact congrArg _ (Std.compare_eq_iff_eq.1 h)

/-- The identifier made from 128 random bits: the version nibble becomes 4, and the top two bits of
the variant become binary 10. -/
def ofRandom (random : BitVec 128) : TransactionId :=
  ⟨(random &&& 0xffffffffffff0fff3fffffffffffffff#128) ||| 0x00000000000040008000000000000000#128⟩

/-- The lengths of the groups of digits. -/
def groups : List Nat := [8, 4, 4, 4, 12]

/-- Cuts digits into groups of the given lengths, joined by hyphens. -/
def hyphenate : List Nat → List Char → List Char
  | [], _ => []
  | [n], digits => digits.take n
  | n :: ns, digits => digits.take n ++ '-' :: hyphenate ns (digits.drop n)

/-- The identifier in lower case with hyphens. -/
def text (id : TransactionId) : String :=
  String.ofList (hyphenate groups (Hex.digits 32 id.bits.toNat))

instance : ToString TransactionId := ⟨text⟩

/-- The digits of a hyphenated form, or `none` if a hyphen is missing or misplaced. -/
def unhyphenate? : List Nat → List Char → Option (List Char)
  | [], [] => some []
  | [], _ :: _ => none
  | [n], text => if text.length = n then some text else none
  | n :: ns, text =>
    match text.drop n with
    | '-' :: rest => (unhyphenate? ns rest).map (text.take n ++ ·)
    | _ => none

/-- The identifier of 32 digits. -/
def ofDigits? (digits : List Char) : Option TransactionId :=
  if digits.length = 32 then (Hex.number? digits).map fun n => ⟨BitVec.ofNat 128 n⟩ else none

/-- The hyphenated part of a text: the text itself, what stands in braces, or what follows the
prefix `urn:uuid:` in any case. -/
def hyphenated? (text : List Char) : Option (List Char) :=
  match text.length with
  | 36 => some text
  | 38 =>
    if text.head? = some '\x7b' ∧ text.getLast? = some '\x7d' then some ((text.drop 1).take 36)
    else none
  | 45 => if (text.take 9).map Char.toLower = "urn:uuid:".toList then some (text.drop 9) else none
  | _ => none

/-- Reads an identifier. -/
def ofText? (text : String) : Option TransactionId :=
  let characters := text.toList
  if characters.length = 32 then ofDigits? characters
  else (hyphenated? characters).bind fun inner => (unhyphenate? groups inner).bind ofDigits?

example : (ofText? "67E5504410B1426F9247BB680E5FE0C8").map text =
    some "67e55044-10b1-426f-9247-bb680e5fe0c8" := by decide

example : (ofRandom 1).text = "00000000-0000-4000-8000-000000000001" := by decide

end TransactionId

end AtomicCommit

import AtomicCommit.Transaction.Id
import Mathlib.Tactic.Ring

/-!
# Reading identifiers back

The hyphenated text of an identifier is read as that identifier.

## Main results

* `Hex.number?_digits`: as many digits as are asked for are the number, as far as they reach.
* `TransactionId.ofText?_text`: an identifier is read back.
-/

namespace AtomicCommit

namespace Hex

theorem value?_digit : ∀ d < 16, value? (digit d) = some d := by decide

@[simp] theorem length_digits (width n : ℕ) : (digits width n).length = width := by simp [digits]

/-- The first digit counts the highest power. -/
theorem digits_succ (width n : ℕ) :
    digits (width + 1) n = digit (n / 16 ^ width % 16) :: digits width n := by
  simp only [digits, List.range_succ_eq_map, List.map_cons, List.map_map, Nat.pow_eq]
  congr 1
  refine List.map_congr_left fun i _ => ?_
  simp only [Function.comp_apply]
  congr 4
  omega

/-- Digits are read onto those before them. -/
theorem foldlM_digits (read width n : ℕ) :
    (digits width n).foldlM (fun n c => (value? c).map (16 * n + ·)) read =
      some (read * 16 ^ width + n % 16 ^ width) := by
  induction width generalizing read with
  | zero => simp [digits, Nat.mod_one]
  | succ width ih =>
    rw [digits_succ, List.foldlM_cons, value?_digit _ (Nat.mod_lt _ (by decide))]
    show (digits width n).foldlM _ (16 * read + n / 16 ^ width % 16) = _
    rw [ih, Nat.pow_succ, Nat.mod_mul]
    congr 1
    ring

theorem number?_digits (width n : ℕ) : number? (digits width n) = some (n % 16 ^ width) := by
  rw [number?, foldlM_digits, Nat.zero_mul, Nat.zero_add]

end Hex

namespace TransactionId

/-- Groups that are joined are taken apart again. -/
theorem unhyphenate?_hyphenate {ns : List ℕ} {cs : List Char} (filled : ns ≠ [])
    (length : cs.length = ns.sum) : unhyphenate? ns (hyphenate ns cs) = some cs := by
  induction ns generalizing cs with
  | nil => exact absurd rfl filled
  | cons n ns ih =>
    cases ns with
    | nil =>
      simp only [List.sum_cons, List.sum_nil, Nat.add_zero] at length
      have whole : cs.take n = cs := List.take_of_length_le (Nat.le_of_eq length)
      simp [hyphenate, unhyphenate?, length, whole]
    | cons m ns =>
      rw [List.sum_cons] at length
      have left : (cs.drop n).length = (m :: ns).sum := by
        rw [List.length_drop]
        omega
      have rest := ih (List.cons_ne_nil m ns) left
      have size : (cs.take n).length = n := by rw [List.length_take]; omega
      have drop : (cs.take n ++ '-' :: hyphenate (m :: ns) (cs.drop n)).drop n =
          '-' :: hyphenate (m :: ns) (cs.drop n) := List.drop_left' size
      have take : (cs.take n ++ '-' :: hyphenate (m :: ns) (cs.drop n)).take n = cs.take n :=
        List.take_left' size
      rw [hyphenate, unhyphenate?, drop]
      · simp [rest, take]
      all_goals simp

theorem length_hyphenate {ns : List ℕ} {cs : List Char} (length : cs.length = ns.sum) :
    (hyphenate ns cs).length = ns.sum + (ns.length - 1) := by
  induction ns generalizing cs with
  | nil => rfl
  | cons n ns ih =>
    rw [List.sum_cons] at length
    cases ns with
    | nil => simp_all [hyphenate]
    | cons m ns =>
      have left : (cs.drop n).length = (m :: ns).sum := by
        rw [List.length_drop]
        omega
      rw [hyphenate, List.length_append, List.length_cons, ih left, List.length_take]
      · simp only [List.sum_cons, List.length_cons] at length ⊢
        omega
      · simp

/-- An identifier is read back from its text. -/
theorem ofText?_text (id : TransactionId) : ofText? id.text = some id := by
  have width : (Hex.digits 32 id.bits.toNat).length = groups.sum := Hex.length_digits _ _
  have length : (hyphenate groups (Hex.digits 32 id.bits.toNat)).length = 36 :=
    length_hyphenate width
  have number : id.bits.toNat % 16 ^ 32 = id.bits.toNat := Nat.mod_eq_of_lt id.bits.isLt
  have back : ofDigits? (Hex.digits 32 id.bits.toNat) = some id := by
    rw [ofDigits?, if_pos (Hex.length_digits _ _), Hex.number?_digits, number, Option.map_some,
      BitVec.ofNat_toNat, BitVec.setWidth_eq]
  rw [ofText?, text, String.toList_ofList, if_neg (by rw [length]; decide), hyphenated?]
  split
  · rw [Option.bind_some, unhyphenate?_hyphenate (by decide) width, Option.bind_some, back]
  all_goals simp_all

end TransactionId

end AtomicCommit

import AtomicCommit.Decimal.Shortest
import AtomicCommit.Json.Tree

/-!
# JSON numbers

A number is an integer of the signed or unsigned 64-bit range, or a floating-point number. A text
without point and exponent whose value is in that range is the integer, except that minus zero is
a floating-point zero; every other text is read through a significand of at most 64 bits.
-/

namespace AtomicCommit.Json

/-- An integer that fits 64 bits, signed or unsigned. -/
structure Integer where
  /-- The value. -/
  value : Int
  /-- At least the least signed one. -/
  le_value : -(Nat.pow 2 63 : Int) ≤ value := by decide
  /-- At most the greatest unsigned one. -/
  value_lt : value < (Nat.pow 2 64 : Int) := by decide
deriving DecidableEq

/-- The integer of a value in range. -/
def Integer.ofInt? (value : Int) : Option Integer :=
  if h : -(Nat.pow 2 63 : Int) ≤ value ∧ value < (Nat.pow 2 64 : Int) then
    some ⟨value, h.1, h.2⟩
  else none

/-- A JSON number. -/
inductive Number where
  /-- An integer of at most 64 bits. -/
  | integer (n : Integer)
  /-- A floating-point number. -/
  | float (x : Binary64)
deriving DecidableEq

/-- The text of a number: an integer in decimal, a floating-point number in its shortest form. -/
def Number.text : Number → String
  | .integer n => toString n.value
  | .float x => x.text

namespace NumberText

/-- Takes digits into a significand as long as it stays below `2 ^ 64`: the significand, and how
many digits it took. -/
def accumulate (significand taken : Nat) : List Nat → Nat × Nat
  | [] => (significand, taken)
  | d :: ds =>
    if significand * 10 + d < Nat.pow 2 64 then accumulate (significand * 10 + d) (taken + 1) ds
    else (significand, taken)

/-- The value of digits, or `none` from `2 ^ 31` on. -/
def exponentValue? (digits : List Nat) : Option Nat :=
  digits.foldlM (fun n d => if n * 10 + d < Nat.pow 2 31 then some (n * 10 + d) else none) 0

/-- The floating-point number of a text, or `none` if it is too great. Digits beyond a significand
of 64 bits are counted before the point and ignored after it. -/
def toFloat? (t : NumberText) : Option Binary64 :=
  let (whole, taken) := accumulate 0 0 t.whole
  let (significand, places) := accumulate whole 0 t.fraction
  let power : Int := (t.whole.length - taken : Nat) - (places : Int)
  let magnitude :=
    match t.exponent with
    | none => Binary64.ofDecimal? significand power
    | some (negative, digits) =>
      match exponentValue? digits with
      | some e => Binary64.ofDecimal? significand (if negative then power - e else power + e)
      | none => if significand ≠ 0 ∧ !negative then none else some .zero
  magnitude.map (·.withSign t.negative)

/-- The value of digits. -/
def wholeValue (digits : List Nat) : Nat := digits.foldl (fun n d => n * 10 + d) 0

/-- The number of a text, or `none` if it is too great for a floating-point number. -/
def toNumber? (t : NumberText) : Option Number :=
  if t.fraction.isEmpty && t.exponent.isNone then
    let n := wholeValue t.whole
    if t.negative then
      if n = 0 then some (.float (Binary64.zero.withSign true))
      else
        match Integer.ofInt? (-n) with
        | some i => some (.integer i)
        | none => t.toFloat?.map .float
    else
      match Integer.ofInt? n with
      | some i => some (.integer i)
      | none => t.toFloat?.map .float
  else t.toFloat?.map .float

end NumberText

end AtomicCommit.Json

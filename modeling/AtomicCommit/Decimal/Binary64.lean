/-!
# Binary floating-point numbers of 64 bits

A finite number is a sign, a mantissa and an exponent. Everything is computed from quotients of
natural numbers: `Binary64.round?` takes the nearest number to a quotient, and products and
quotients of numbers are rounded once from their exact values.
-/

namespace AtomicCommit

/-- A finite binary floating-point number: its magnitude is `mantissa * 2 ^ exponent`, with a
mantissa below `2 ^ 53` and an exponent from `-1074` to `971`. -/
structure Binary64 where
  /-- Whether the sign is negative; zero has either sign. -/
  negative : Bool
  /-- The digits of the magnitude, as a whole number. -/
  mantissa : Nat
  /-- The power of two that the mantissa counts. -/
  exponent : Int
deriving DecidableEq, Inhabited

namespace Binary64

/-- Positive zero. -/
def zero : Binary64 := ⟨false, 0, -1074⟩

/-- A quotient in units of `2 ^ e`: numerator and denominator. -/
def inUnits (n d : Nat) (e : Int) : Nat × Nat :=
  if 0 ≤ e then (n, d * Nat.pow 2 e.toNat) else (n * Nat.pow 2 (-e).toNat, d)

/-- The whole number nearest to a quotient; of two equally near ones the even one. -/
def nearest (n d : Nat) : Nat :=
  let q := n / d
  if d < 2 * (n % d) ∨ (d = 2 * (n % d) ∧ q % 2 = 1) then q + 1 else q

/-- The exponent at which a positive quotient has a mantissa of 53 bits, or the least one. -/
def exponentOf (n d : Nat) : Int :=
  let e : Int := (n.log2 : Int) - d.log2 - 52
  let (n', d') := inUnits n d e
  max (if n' < d' * Nat.pow 2 52 then e - 1 else e) (-1074)

/-- The nonnegative number nearest to the quotient `n / d`, a tie going to the even mantissa, or
`none` if the quotient lies beyond the greatest number. -/
def round? (n d : Nat) : Option Binary64 :=
  if n = 0 then some zero
  else
    let e := exponentOf n d
    let (n', d') := inUnits n d e
    let m := nearest n' d'
    let (m, e) := if m = Nat.pow 2 53 then (Nat.pow 2 52, e + 1) else (m, e)
    if 971 < e then none else some ⟨false, m, e⟩

/-- The magnitude as a quotient: numerator and denominator. -/
def magnitude (x : Binary64) : Nat × Nat :=
  if 0 ≤ x.exponent then (x.mantissa * Nat.pow 2 x.exponent.toNat, 1)
  else (x.mantissa, Nat.pow 2 (-x.exponent).toNat)

/-- The nearest number to a natural number. -/
def ofNat? (n : Nat) : Option Binary64 := round? n 1

/-- The product of two magnitudes, rounded. -/
def mul? (x y : Binary64) : Option Binary64 :=
  round? (x.magnitude.1 * y.magnitude.1) (x.magnitude.2 * y.magnitude.2)

/-- The quotient of two magnitudes, rounded. -/
def div? (x y : Binary64) : Option Binary64 :=
  round? (x.magnitude.1 * y.magnitude.2) (x.magnitude.2 * y.magnitude.1)

/-- The number with the given sign. -/
def withSign (x : Binary64) (negative : Bool) : Binary64 := { x with negative }

/-- Multiplies by a power of ten of at most 308, itself rounded first. -/
def scaleUp? (x : Binary64) (power : Nat) : Option Binary64 :=
  (ofNat? (Nat.pow 10 power)).bind x.mul?

/-- Divides by a power of ten of at most 308, itself rounded first. -/
def scaleDown? (x : Binary64) (power : Nat) : Option Binary64 :=
  (ofNat? (Nat.pow 10 power)).bind x.div?

/-- The number written with a significand below `2 ^ 64` and a power of ten. The significand and
the power are rounded on their own, and a power below `10 ^ -308` is reached in two divisions; what
would round to infinity has no value. -/
def ofDecimal? (significand : Nat) (power : Int) : Option Binary64 :=
  if significand = 0 then some zero
  else
    (ofNat? significand).bind fun x =>
      if 308 < power then none
      else if 0 ≤ power then x.scaleUp? power.toNat
      else if -308 ≤ power then x.scaleDown? (-power).toNat
      else if -616 ≤ power then (x.scaleDown? 308).bind (·.scaleDown? (-power - 308).toNat)
      else some zero

example : ofDecimal? 15 (-1) = some ⟨false, 3 * Nat.pow 2 51, -52⟩ := by decide +kernel

example : ofDecimal? 1 309 = none := by decide

end Binary64

end AtomicCommit

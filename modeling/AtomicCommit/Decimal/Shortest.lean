import AtomicCommit.Decimal.Binary64

/-!
# The shortest decimal text of a floating-point number

Every number has an interval of quotients that round to it. `Binary64.shortest` gives the fewest
decimal digits that lie in the interval, and of those the nearest to the number; `Binary64.text`
writes them with a point from `10 ^ -5` up to `10 ^ 16`, and otherwise with an exponent that always
has a sign.
-/

namespace AtomicCommit.Binary64

/-- The exponent of the leading decimal digit of a positive quotient: `10 ^ p` is at most the
quotient, and `10 ^ (p + 1)` above it. -/
def leadingPower (n d : Nat) : Int :=
  ((Nat.toDigits 10 (n * Nat.pow 10 340 / d)).length : Int) - 341

/-- A quotient in units of `10 ^ p`: numerator and denominator. -/
def inDecimalUnits (n d : Nat) (p : Int) : Nat × Nat :=
  if 0 ≤ p then (n, d * Nat.pow 10 p.toNat) else (n * Nat.pow 10 (-p).toNat, d)

/-- The two ends of the interval of quotients that round to a positive number, as multiples of
`2 ^ (exponent - 2)`. -/
def interval (x : Binary64) : Nat × Nat :=
  let lower := if x.mantissa = Nat.pow 2 52 ∧ -1074 < x.exponent then 1 else 2
  (4 * x.mantissa - lower, 4 * x.mantissa + 2)

/-- Whether `c * 10 ^ p` rounds to the number. The ends of the interval do so iff the mantissa is
even. -/
def reads (x : Binary64) (c : Nat) (p : Int) : Bool :=
  let (low, high) := x.interval
  -- both sides of the comparison in units of the quarter of the last place
  let (n, d) := if 0 ≤ p then (c * Nat.pow 10 p.toNat, 1) else (c, Nat.pow 10 (-p).toNat)
  let (n, d) := inUnits n d (x.exponent - 2)
  if x.mantissa % 2 = 0 then low * d ≤ n && n ≤ high * d else low * d < n && n < high * d

/-- Of the two neighbours of the number on the grid of `10 ^ p`, the nearer one that rounds to it;
of two equally near ones the even one. -/
def onGrid? (x : Binary64) (p : Int) : Option Nat :=
  let (n, d) := x.magnitude
  let (n, d) := inDecimalUnits n d p
  let below := n / d
  let near := nearest n d
  let far := if near = below then below + 1 else below
  if x.reads near p then some near
  else if x.reads far p then some far
  else none

/-- The first grid with a hit, from the coarsest on: the digits and the power of the last one. -/
def searchGrids (x : Binary64) (leading : Int) : Nat → Nat × Int
  | 0 => (x.mantissa, 0)
  | left + 1 =>
    let p := leading - (16 - left)
    match x.onGrid? p with
    | some c => (c, p)
    | none => searchGrids x leading left

/-- The fewest decimal digits that round to a positive number, with the power of ten of the last. -/
def shortest (x : Binary64) : Nat × Int :=
  let (n, d) := x.magnitude
  searchGrids x (leadingPower n d) 17

/-- Digits without the zeros at the end, and how many zeros those were. -/
def stripZeros (digits : List Char) : List Char × Nat :=
  let stripped := (digits.reverse.dropWhile (· = '0')).reverse
  (stripped, digits.length - stripped.length)

/-- A decimal exponent with its sign. -/
def exponentText (power : Int) : List Char :=
  (if power < 0 then '-' else '+') :: Nat.toDigits 10 power.natAbs

/-- The text of a number: a point in every number without exponent, and digits after it. -/
def text (x : Binary64) : String :=
  let sign := if x.negative then ['-'] else []
  if x.mantissa = 0 then String.ofList (sign ++ ['0', '.', '0'])
  else
    let (c, last) := x.shortest
    let (digits, zeros) := stripZeros (Nat.toDigits 10 c)
    let last := last + zeros
    let leading := last + digits.length - 1
    let body :=
      if leading < -5 ∨ 16 ≤ leading then
        digits.take 1 ++ (if digits.length = 1 then [] else '.' :: digits.drop 1)
          ++ 'e' :: exponentText leading
      else if leading < 0 then
        ['0', '.'] ++ List.replicate (-leading - 1).toNat '0' ++ digits
      else if 0 ≤ last then
        digits ++ List.replicate last.toNat '0' ++ ['.', '0']
      else
        digits.take (leading + 1).toNat ++ '.' :: digits.drop (leading + 1).toNat
    String.ofList (sign ++ body)

example : (ofDecimal? 15 (-1)).map text = some "1.5" := by decide +kernel

example : (ofDecimal? 1 16).map text = some "1e+16" := by decide +kernel

example : (ofDecimal? 15 (-8)).map text = some "1.5e-7" := by decide +kernel

example : (ofDecimal? 100 0).map text = some "100.0" := by decide +kernel

end AtomicCommit.Binary64

/-!
# Durations

A duration is a whole number of nanoseconds, of less than 2^64 seconds. Its text gives the whole
part and the fraction of the largest unit that has a whole part.
-/

namespace AtomicCommit

/-- The number of nanoseconds in a second. -/
abbrev nanosPerSecond : Nat := 1000000000

/-- A length of time in nanoseconds. -/
structure Duration where
  /-- The number of nanoseconds. -/
  nanos : Nat
  /-- Less than 2^64 whole seconds. -/
  nanos_lt : nanos < Nat.pow 2 64 * nanosPerSecond := by decide
deriving DecidableEq

namespace Duration

instance : LE Duration := ⟨fun a b => a.nanos ≤ b.nanos⟩

instance (a b : Duration) : Decidable (a ≤ b) := inferInstanceAs (Decidable (a.nanos ≤ b.nanos))

instance : LT Duration := ⟨fun a b => a.nanos < b.nanos⟩

instance (a b : Duration) : Decidable (a < b) := inferInstanceAs (Decidable (a.nanos < b.nanos))

instance : Min Duration := ⟨fun a b => if a ≤ b then a else b⟩

/-- The empty duration. -/
def zero : Duration := { nanos := 0 }

instance : Inhabited Duration := ⟨zero⟩

/-- The duration of that many nanoseconds, if it is in range. -/
def ofNanos? (nanos : Nat) : Option Duration :=
  if h : nanos < Nat.pow 2 64 * nanosPerSecond then some ⟨nanos, h⟩ else none

/-- The duration of whole seconds and further nanoseconds, if it is in range. -/
def ofParts? (seconds nanos : Nat) : Option Duration := ofNanos? (seconds * nanosPerSecond + nanos)

/-- The whole seconds. -/
def seconds (d : Duration) : Nat := d.nanos / nanosPerSecond

/-- The nanoseconds beyond the whole seconds. -/
def subsecond (d : Duration) : Nat := d.nanos % nanosPerSecond

/-- The duration `n` times over, if it is in range. -/
def times? (d : Duration) (n : Nat) : Option Duration := ofNanos? (d.nanos * n)

/-- The digits of `n` in `width` places, without the zeros at the end. -/
def fraction (width n : Nat) : String :=
  let digits := (List.range width).map fun i =>
    Char.ofNat (48 + n / Nat.pow 10 (width - 1 - i) % 10)
  String.ofList (digits.reverse.dropWhile (· = '0')).reverse

/-- A count of units of which each is `10 ^ width` nanoseconds, as a decimal number. -/
def inUnits (width nanos : Nat) : String :=
  let whole := toString (nanos / Nat.pow 10 width)
  let rest := fraction width (nanos % Nat.pow 10 width)
  if rest.isEmpty then whole else whole ++ "." ++ rest

/-- The duration in the largest of seconds, milliseconds, microseconds and nanoseconds of which it
has at least one. -/
def text (d : Duration) : String :=
  if 1000000000 ≤ d.nanos then inUnits 9 d.nanos ++ "s"
  else if 1000000 ≤ d.nanos then inUnits 6 d.nanos ++ "ms"
  else if 1000 ≤ d.nanos then inUnits 3 d.nanos ++ "µs"
  else inUnits 0 d.nanos ++ "ns"

instance : ToString Duration := ⟨text⟩

example : text { nanos := 2000000001 } = "2.000000001s" := by decide

example : text { nanos := 50000000 } = "50ms" := by decide

example : text zero = "0ns" := by decide

end Duration

end AtomicCommit

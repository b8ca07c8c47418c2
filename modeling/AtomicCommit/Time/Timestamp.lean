import AtomicCommit.Time.Duration

/-!
# Points in time

A timestamp counts nanoseconds from the epoch, before it or after it, as far as a signed 64-bit
number of seconds reaches.
-/

namespace AtomicCommit

/-- A point in time. -/
structure Timestamp where
  /-- The nanoseconds since the epoch; negative before it. -/
  nanos : Int
  /-- No earlier than the least number of seconds. -/
  le_nanos : -(Nat.pow 2 63 * nanosPerSecond : Nat) ≤ nanos := by decide
  /-- Within the greatest number of seconds. -/
  nanos_lt : nanos < (Nat.pow 2 63 * nanosPerSecond : Nat) := by decide
deriving DecidableEq

namespace Timestamp

/-- The start of the count. -/
def epoch : Timestamp := { nanos := 0 }

instance : Inhabited Timestamp := ⟨epoch⟩

/-- The point that many nanoseconds from the epoch, if it is in range. -/
def ofNanos? (nanos : Int) : Option Timestamp :=
  if h : -(Nat.pow 2 63 * nanosPerSecond : Nat) ≤ nanos ∧
      nanos < (Nat.pow 2 63 * nanosPerSecond : Nat) then
    some ⟨nanos, h.1, h.2⟩
  else none

/-- The point at whole seconds, rounded down, and further nanoseconds, if it is in range. -/
def ofParts? (seconds : Int) (nanos : Nat) : Option Timestamp :=
  ofNanos? (seconds * nanosPerSecond + nanos)

/-- The seconds since the epoch, rounded down. -/
def seconds (t : Timestamp) : Int := t.nanos.fdiv nanosPerSecond

/-- The nanoseconds beyond the seconds. -/
def subsecond (t : Timestamp) : Nat := (t.nanos.fmod nanosPerSecond).toNat

/-- The point a duration later, if it is in range. -/
def add? (t : Timestamp) (d : Duration) : Option Timestamp := ofNanos? (t.nanos + d.nanos)

/-- The time from `now` until `deadline`, or zero if it has passed. -/
def remaining (now deadline : Timestamp) : Duration where
  nanos := (deadline.nanos - now.nanos).toNat
  nanos_lt := by
    have := deadline.nanos_lt; have := now.le_nanos
    simp only [nanosPerSecond, Nat.pow_eq] at *
    omega

/-- The text of a point in time inside messages. -/
def inspect (t : Timestamp) : String :=
  "SystemTime \x7b tv_sec: " ++ toString t.seconds ++ ", tv_nsec: " ++ toString t.subsecond
    ++ " \x7d"

end Timestamp

end AtomicCommit

import AtomicCommit.Config
import Mathlib.Algebra.Group.Nat.Even

/-!
# The pauses between the rounds of a delivery

A pause is the initial pause times a power of two, but never more than the longest pause. The power
of two stops growing at the greatest 32-bit number: the first 32 pauses double until the longest is
reached, and all later ones are alike. Whether the pauses then stop short of the longest one depends
on the configuration, and `Config.backoff_of_build` says for which ones they do.

## Main results

* `RetryPolicy.nanos_backoff`: a pause in nanoseconds.
* `RetryPolicy.nanos_backoff_succ`: among the first 32, a pause is twice the one before it, up to
  the longest.
* `Config.backoff_of_build`: the pauses of every configuration that passes its checks.
-/

namespace AtomicCommit

namespace Duration

@[simp]
theorem nanos_zero : zero.nanos = 0 := rfl

theorem eq_zero_iff {d : Duration} : d = zero ↔ d.nanos = 0 := by
  cases d
  simp [zero]

@[simp]
theorem nanos_min (a b : Duration) : (min a b).nanos = min a.nanos b.nanos := by
  change (if a.nanos ≤ b.nanos then a else b).nanos = _
  split <;> omega

/-- Nothing is lost by taking a bound for a multiple that is out of range: the multiple is more than
every duration. -/
theorem nanos_bounded_times (d bound : Duration) (n : Nat) :
    (match d.times? n with | some pause => min pause bound | none => bound).nanos
      = min (d.nanos * n) bound.nanos := by
  by_cases inRange : d.nanos * n < Nat.pow 2 64 * nanosPerSecond
  · have times : d.times? n = some ⟨d.nanos * n, inRange⟩ := dif_pos inRange
    rw [times]
    exact nanos_min _ _
  · have times : d.times? n = none := dif_neg inRange
    rw [times, Nat.min_eq_right]
    exact Nat.le_of_lt (Nat.lt_of_lt_of_le bound.nanos_lt (Nat.le_of_not_lt inRange))

end Duration

namespace RetryPolicy

variable (policy : RetryPolicy)

/-- The first 32 pauses are doubled up to the longest. No multiplication wraps around: a product
that is out of range counts as the longest pause. -/
theorem nanos_backoff_of_lt {retry : Nat} (early : retry < 32) :
    (policy.backoff retry).nanos
      = min (policy.initialBackoff.nanos * 2 ^ retry) policy.maxBackoff.nanos := by
  simp only [backoff, if_pos early]
  exact Duration.nanos_bounded_times _ _ _

/-- All later pauses are the same. -/
theorem nanos_backoff_of_le {retry : Nat} (late : 32 ≤ retry) :
    (policy.backoff retry).nanos
      = min (policy.initialBackoff.nanos * (2 ^ 32 - 1)) policy.maxBackoff.nanos := by
  simp only [backoff, if_neg (Nat.not_lt.mpr late)]
  exact Duration.nanos_bounded_times _ _ _

/-- A pause is the initial one times a bounded power of two, and never more than the longest. -/
theorem nanos_backoff (retry : Nat) :
    (policy.backoff retry).nanos
      = min (policy.initialBackoff.nanos * min (2 ^ retry) (2 ^ 32 - 1))
          policy.maxBackoff.nanos := by
  rcases Nat.lt_or_ge retry 32 with early | late
  · have : 2 ^ retry < 2 ^ 32 := Nat.pow_lt_pow_right (by decide) early
    rw [nanos_backoff_of_lt policy early, Nat.min_eq_left (Nat.le_sub_one_of_lt this)]
  · have : 2 ^ 32 ≤ 2 ^ retry := Nat.pow_le_pow_right (by decide) late
    rw [nanos_backoff_of_le policy late, Nat.min_eq_right (Nat.le_trans (Nat.sub_le _ _) this)]

/-- Among the first 32, a pause is twice the one before it, up to the longest. -/
theorem nanos_backoff_succ {retry : Nat} (early : retry + 1 < 32) :
    (policy.backoff (retry + 1)).nanos
      = min (2 * (policy.backoff retry).nanos) policy.maxBackoff.nanos := by
  rw [nanos_backoff_of_lt policy early, nanos_backoff_of_lt policy (Nat.lt_of_succ_lt early),
    Nat.pow_succ', Nat.mul_left_comm]
  generalize policy.initialBackoff.nanos * 2 ^ retry = doubled
  omega

/-- A later pause is no shorter. -/
theorem backoff_mono {retry later : Nat} (le : retry ≤ later) :
    policy.backoff retry ≤ policy.backoff later := by
  have powers : 2 ^ retry ≤ 2 ^ later := Nat.pow_le_pow_right (by decide) le
  have factors : min (2 ^ retry) (2 ^ 32 - 1) ≤ min (2 ^ later) (2 ^ 32 - 1) := by omega
  have products := Nat.mul_le_mul_left policy.initialBackoff.nanos factors
  change (policy.backoff retry).nanos ≤ (policy.backoff later).nanos
  rw [nanos_backoff, nanos_backoff]
  omega

/-- The pauses are doubled up to the longest one unless they stop growing before they reach it. -/
theorem nanos_backoff_eq_iff (retry : Nat) :
    (policy.backoff retry).nanos
        = min (policy.initialBackoff.nanos * 2 ^ retry) policy.maxBackoff.nanos ↔
      retry < 32 ∨ policy.initialBackoff = .zero ∨
        policy.maxBackoff.nanos ≤ policy.initialBackoff.nanos * (2 ^ 32 - 1) := by
  rcases Nat.lt_or_ge retry 32 with early | late
  · exact iff_of_true (nanos_backoff_of_lt policy early) (.inl early)
  · have power : 2 ^ 32 ≤ 2 ^ retry := Nat.pow_le_pow_right (by decide) late
    have more := Nat.mul_le_mul_left policy.initialBackoff.nanos power
    have none : policy.initialBackoff.nanos = 0 → policy.initialBackoff.nanos * 2 ^ retry = 0 :=
      fun zero => by rw [zero, Nat.zero_mul]
    rw [nanos_backoff_of_le policy late, Duration.eq_zero_iff]
    generalize policy.initialBackoff.nanos * 2 ^ retry = doubled at more none ⊢
    omega

end RetryPolicy

namespace Config

/-- What the checks of a configuration establish. -/
theorem checked_of_build {options : Options} {config : Config}
    (built : build options = .ok config) :
    config.prepareTimeout ≠ .zero ∧ config.ackTimeout ≠ .zero ∧ config.retry.maxAttempts ≠ 0 ∧
      config.retry.initialBackoff ≤ config.retry.maxBackoff := by
  simp only [build] at built
  repeat' split at built
  all_goals cases built
  case isFalse prepares acknowledges attempts ordered =>
    exact ⟨prepares, acknowledges, attempts, Nat.le_of_not_lt ordered⟩

/-- A configuration that has passed its checks lets a decision be sent at least once. -/
theorem attempts_of_build {options : Options} {config : Config}
    (built : build options = .ok config) : config.retry.maxAttempts ≠ 0 :=
  (checked_of_build built).2.2.1

/-- The pauses of a configuration that has passed its checks. Every pause is the initial one times a
power of two that stops growing at the greatest 32-bit number, up to the longest, in exact
nanoseconds over the whole range. That is the doubled pause up to the longest exactly for the first
32 pauses, where there is no initial pause, and where the greatest multiple reaches the longest
pause. No pause is shorter than the initial one or the one before it, and none exceeds the
longest. -/
theorem backoff_of_build {options : Options} {config : Config}
    (built : build options = .ok config) (retry : Nat) :
    let policy := config.retry
    let pause := policy.backoff retry
    pause.nanos = min (policy.initialBackoff.nanos * min (2 ^ retry) (2 ^ 32 - 1))
        policy.maxBackoff.nanos ∧
      (pause.nanos = min (policy.initialBackoff.nanos * 2 ^ retry) policy.maxBackoff.nanos ↔
        retry < 32 ∨ policy.initialBackoff = .zero ∨
          policy.maxBackoff.nanos ≤ policy.initialBackoff.nanos * (2 ^ 32 - 1)) ∧
      policy.initialBackoff ≤ pause ∧ pause ≤ policy.maxBackoff ∧
      pause ≤ policy.backoff (retry + 1) := by
  have exact_nanos := config.retry.nanos_backoff retry
  refine ⟨exact_nanos, config.retry.nanos_backoff_eq_iff retry, ?_, ?_,
    config.retry.backoff_mono (Nat.le_succ retry)⟩
  · have ordered : config.retry.initialBackoff.nanos ≤ config.retry.maxBackoff.nanos :=
      (checked_of_build built).2.2.2
    have once : 1 ≤ min (2 ^ retry) (2 ^ 32 - 1) := by
      have := Nat.one_le_two_pow (n := retry)
      omega
    have multiple := Nat.mul_le_mul_left config.retry.initialBackoff.nanos once
    change config.retry.initialBackoff.nanos ≤ (config.retry.backoff retry).nanos
    omega
  · change (config.retry.backoff retry).nanos ≤ config.retry.maxBackoff.nanos
    omega

/-- An initial pause of a nanosecond, and the longest pause there is. -/
def unhurried : Config where
  prepareTimeout := default.prepareTimeout
  ackTimeout := default.ackTimeout
  retry :=
    { maxAttempts := default.retry.maxAttempts
      initialBackoff := { nanos := 1 }
      maxBackoff := { nanos := 18446744073709551615999999999 } }

/-- What has to be given for it. -/
def unhurriedOptions : Options where
  initialBackoff := some unhurried.retry.initialBackoff
  maxBackoff := some unhurried.retry.maxBackoff

theorem build_unhurried : build unhurriedOptions = .ok unhurried := by
  simp only [build, unhurriedOptions, unhurried, Option.getD]
  rfl

theorem backoff_of_build_unhurried :
    build unhurriedOptions = .ok unhurried ∧ (unhurried.retry.backoff 31).nanos = 2147483648 ∧
      (unhurried.retry.backoff 32).nanos = 4294967295 := by
  have first := (backoff_of_build build_unhurried 31).1
  have second := (backoff_of_build build_unhurried 32).1
  exact ⟨build_unhurried, by rw [first]; decide, by rw [second]; decide⟩

/-- An accepted configuration whose pauses stop growing before they are anywhere near the longest:
the pause with number 32 is a nanosecond short of the doubled one, and the next is no longer. -/
theorem backoff_stops_short :
    build unhurriedOptions = .ok unhurried ∧
      min (unhurried.retry.initialBackoff.nanos * 2 ^ 32) unhurried.retry.maxBackoff.nanos
        = 4294967296 ∧
      (unhurried.retry.backoff 32).nanos = 4294967295 ∧
      (unhurried.retry.backoff 33).nanos = 4294967295 :=
  ⟨build_unhurried, by decide, by decide, by decide⟩

end Config

end AtomicCommit

import AtomicCommit.Error.State

/-!
# Configuration of a coordinator

How long a coordinator waits for votes and acknowledgements, how often it delivers a decision, and
how long it pauses between deliveries. `Config.build` takes what is given, fills in the defaults
and refuses what makes no sense.
-/

namespace AtomicCommit

/-- How a decision is delivered again. -/
structure RetryPolicy where
  /-- The number of delivery rounds. -/
  maxAttempts : Nat
  /-- The pause after the first round. -/
  initialBackoff : Duration
  /-- The longest pause. -/
  maxBackoff : Duration
deriving DecidableEq

/-- The pause after the `retry`-th failed round, counting from zero: the initial pause times a power
of two that stops growing at the greatest 32-bit number, but never more than the longest pause. -/
def RetryPolicy.backoff (policy : RetryPolicy) (retry : Nat) : Duration :=
  let factor := if retry < 32 then Nat.pow 2 retry else Nat.pow 2 32 - 1
  match policy.initialBackoff.times? factor with
  | some pause => min pause policy.maxBackoff
  | none => policy.maxBackoff

/-- The configuration of a coordinator. -/
structure Config where
  /-- How long recovery waits for votes. -/
  prepareTimeout : Duration
  /-- How long a delivery round waits for acknowledgements. -/
  ackTimeout : Duration
  /-- How a decision is delivered again. -/
  retry : RetryPolicy
deriving DecidableEq

namespace Config

/-- The configuration used where nothing is given. -/
def default : Config where
  prepareTimeout := { nanos := 30 * nanosPerSecond }
  ackTimeout := { nanos := 5 * nanosPerSecond }
  retry :=
    { maxAttempts := 5
      initialBackoff := { nanos := 50000000 }
      maxBackoff := { nanos := 2 * nanosPerSecond } }

instance : Inhabited Config := ⟨default⟩

/-- What may be given of a configuration. -/
structure Options where
  /-- How long recovery waits for votes. -/
  prepareTimeout : Option Duration := none
  /-- How long a delivery round waits for acknowledgements. -/
  ackTimeout : Option Duration := none
  /-- The number of delivery rounds. -/
  maxAttempts : Option Nat := none
  /-- The pause after the first round. -/
  initialBackoff : Option Duration := none
  /-- The longest pause. -/
  maxBackoff : Option Duration := none

/-- Fills in the defaults and checks the result. -/
def build (options : Options) : Except StateError Config :=
  let prepareTimeout := options.prepareTimeout.getD default.prepareTimeout
  let ackTimeout := options.ackTimeout.getD default.ackTimeout
  let maxAttempts := options.maxAttempts.getD default.retry.maxAttempts
  let initialBackoff := options.initialBackoff.getD default.retry.initialBackoff
  let maxBackoff := options.maxBackoff.getD default.retry.maxBackoff
  if prepareTimeout = .zero then .error .zeroPrepareTimeout
  else if ackTimeout = .zero then .error .zeroAckTimeout
  else if maxAttempts = 0 then .error .noAttempts
  else if maxBackoff < initialBackoff then .error (.backoffOrder initialBackoff maxBackoff)
  else .ok { prepareTimeout, ackTimeout, retry := { maxAttempts, initialBackoff, maxBackoff } }

end Config

end AtomicCommit

namespace AgentWire.Client

/-!
# Trying again

After the first failure a client waits the base delay, after each further one
twice as long, and never longer than the greatest delay.  Delays are counted in
nanoseconds and stay in range.
-/

/-- A span of time in nanoseconds, of at most 2 ^ 64 - 1 whole seconds. -/
structure Delay where
  nanoseconds : Nat
  fits : nanoseconds < UInt64.size * 1000000000 := by decide
  deriving Repr, DecidableEq

namespace Delay

/-- A span of a number of milliseconds. -/
def ofMilliseconds (milliseconds : UInt64) : Delay where
  nanoseconds := milliseconds.toNat * 1000000
  fits := by
    have bound := milliseconds.toNat_lt_size
    have scaled := Nat.mul_lt_mul_of_pos_right bound (show 0 < 1000000 by decide)
    exact Nat.lt_of_lt_of_le scaled (by decide)

/-- A span of a number of seconds. -/
def ofSeconds (seconds : UInt32) : Delay where
  nanoseconds := seconds.toNat * 1000000000
  fits := by
    have bound := seconds.toNat_lt_size
    exact Nat.mul_lt_mul_of_pos_right (Nat.lt_trans bound (by decide)) (by decide)

/-- The whole milliseconds of a span. -/
def milliseconds (delay : Delay) : Nat :=
  delay.nanoseconds / 1000000

/-- A span as often as given, if it stays in range. -/
def times? (delay : Delay) (factor : Nat) : Option Delay :=
  if fits : delay.nanoseconds * factor < UInt64.size * 1000000000 then
    some ⟨delay.nanoseconds * factor, fits⟩
  else
    none

/-- The shorter of two spans. -/
def min (left right : Delay) : Delay :=
  if left.nanoseconds ≤ right.nanoseconds then left else right

end Delay

/-- How often and when a client tries again. -/
structure RetryPolicy where
  baseDelay : Delay := .ofSeconds 1
  maxDelay : Delay := .ofSeconds 30
  maxAttempts : UInt32 := 10
  deriving Repr, DecidableEq

namespace RetryPolicy

/-- Never try again. -/
def disabled : RetryPolicy :=
  { maxAttempts := 0 }

/-- The factor of the base delay before an attempt: two to its number less one, at most 2 ^ 31. -/
def factor (attempt : UInt32) : Nat :=
  Nat.pow 2 (Nat.min (attempt.toNat - 1) 31)

/-- The delay before an attempt to try again; attempts count from one. -/
def delayFor (policy : RetryPolicy) (attempt : UInt32) : Delay :=
  ((policy.baseDelay.times? (factor attempt)).getD policy.maxDelay).min policy.maxDelay

/-- Whether one more attempt follows after this many failures in a row. -/
def allows (policy : RetryPolicy) (failures : UInt32) : Bool :=
  failures ≤ policy.maxAttempts

end RetryPolicy

end AgentWire.Client

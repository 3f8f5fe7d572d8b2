import AgentWire.Client.Retry
import Mathlib.Algebra.Group.Nat.Defs

namespace AgentWire.Client

/-!
# How long a client waits

The delay before an attempt is the base delay, doubled for every attempt before it, but
never more than the greatest delay.  Doubling stops at the thirty-second attempt: a greatest
delay that is not reached by then is not reached later either.
-/

namespace RetryPolicy

/-- The lesser of two delays has the lesser length. -/
theorem nanoseconds_min (left right : Delay) :
    (left.min right).nanoseconds = min left.nanoseconds right.nanoseconds := by
  rw [Delay.min, Nat.min_def]
  split <;> rfl

/-- A product that no span can hold is longer than any greatest delay. -/
theorem nanoseconds_capped (delay most : Delay) (factor : Nat) :
    (((delay.times? factor).getD most).min most).nanoseconds =
      min (delay.nanoseconds * factor) most.nanoseconds := by
  rw [nanoseconds_min, Delay.times?]
  split
  · rfl
  · next overflows =>
    have within : most.nanoseconds ≤ delay.nanoseconds * factor :=
      Nat.le_trans (Nat.le_of_lt most.fits) (Nat.not_lt.mp overflows)
    rw [Nat.min_eq_right within]
    exact Nat.min_self most.nanoseconds

/-- A delay is the base delay times its factor, or the greatest one. -/
theorem nanoseconds_delayFor (policy : RetryPolicy) (attempt : UInt32) :
    (policy.delayFor attempt).nanoseconds =
      min (policy.baseDelay.nanoseconds * factor attempt) policy.maxDelay.nanoseconds :=
  nanoseconds_capped _ _ _

/-- The factor fits a word: no power that is taken overflows. -/
theorem factor_lt_size (attempt : UInt32) : factor attempt < UInt32.size :=
  Nat.pow_lt_pow_right (by decide) (Nat.lt_succ_of_le (Nat.min_le_right _ 31))

/-- Up to the thirty-second attempt the factor doubles. -/
theorem factor_of_le {attempt : UInt32} (few : attempt ≤ 32) :
    factor attempt = 2 ^ (attempt.toNat - 1) := by
  have exponent : attempt.toNat - 1 ≤ 31 :=
    Nat.sub_le_of_le_add (UInt32.le_iff_toNat_le.mp few)
  exact congrArg (2 ^ ·) (Nat.min_eq_left exponent)

/-- From then on it stays the same. -/
theorem factor_of_ge {attempt : UInt32} (many : 32 ≤ attempt) : factor attempt = 2 ^ 31 := by
  have exponent : 31 ≤ attempt.toNat - 1 :=
    Nat.le_sub_of_add_le (UInt32.le_iff_toNat_le.mp many)
  exact congrArg (2 ^ ·) (Nat.min_eq_right exponent)

/-- The factor never gets smaller. -/
theorem factor_mono {attempt later : UInt32} (follows : attempt ≤ later) :
    factor attempt ≤ factor later := by
  have further : attempt.toNat - 1 ≤ later.toNat - 1 :=
    Nat.sub_le_sub_right (UInt32.le_iff_toNat_le.mp follows) 1
  have exponents : min (attempt.toNat - 1) 31 ≤ min (later.toNat - 1) 31 := by omega
  exact Nat.pow_le_pow_right (by decide) exponents

/-- Doubling on would give more than the last factor, unless there is nothing to double. -/
theorem capped_eq_iff
    {base most factor further : Nat}
    (grows : factor < further) :
    min (base * factor) most = min (base * further) most ↔
      base = 0 ∨ most ≤ base * factor := by
  constructor
  · intro same
    by_cases nothing : base = 0
    · exact .inl nothing
    · have longer : base * factor < base * further :=
        Nat.mul_lt_mul_of_pos_left grows (Nat.pos_of_ne_zero nothing)
      exact .inr (by omega)
  · rintro (rfl | reached)
    · simp
    · have longer : base * factor ≤ base * further :=
        Nat.mul_le_mul_left base (Nat.le_of_lt grows)
      omega

/--
The delay before an attempt is the doubled base delay or the greatest delay, whichever is
less, as long as the attempt is one of the first thirty-two or the greatest delay is reached
by them; from then on it stays the same.  No factor overflows, and no delay is longer than
the greatest one or shorter than one before it.
-/
theorem delayFor_doubles (policy : RetryPolicy) (attempt : UInt32) :
    let base := policy.baseDelay.nanoseconds
    let most := policy.maxDelay.nanoseconds
    let delay (attempt : UInt32) := (policy.delayFor attempt).nanoseconds
    factor attempt < UInt32.size ∧
      (delay attempt = min (base * 2 ^ (attempt.toNat - 1)) most ↔
        attempt ≤ 32 ∨ base = 0 ∨ most ≤ base * 2 ^ 31) ∧
      (32 ≤ attempt → delay attempt = min (base * 2 ^ 31) most) ∧
      delay attempt ≤ most ∧
      ∀ later, attempt ≤ later → delay attempt ≤ delay later := by
  intro base most delay
  have delay_eq (attempt : UInt32) : delay attempt = min (base * factor attempt) most :=
    policy.nanoseconds_delayFor attempt
  refine ⟨factor_lt_size attempt, ?_, ?_, ?_, ?_⟩
  · rw [delay_eq]
    by_cases few : attempt ≤ 32
    · rw [factor_of_le few]
      exact ⟨fun _ => .inl few, fun _ => rfl⟩
    · have many : 32 < attempt.toNat := by
        simpa [UInt32.le_iff_toNat_le] using few
      have grows : 2 ^ 31 < 2 ^ (attempt.toNat - 1) :=
        Nat.pow_lt_pow_right (by decide) (Nat.lt_sub_of_add_lt many)
      rw [factor_of_ge (UInt32.le_iff_toNat_le.mpr (Nat.le_of_lt many)), capped_eq_iff grows]
      exact ⟨.inr, fun either => either.resolve_left few⟩
  · intro many
    rw [delay_eq, factor_of_ge many]
  · rw [delay_eq]
    exact Nat.min_le_right _ _
  · intro later follows
    rw [delay_eq, delay_eq]
    have longer : base * factor attempt ≤ base * factor later :=
      Nat.mul_le_mul_left base (factor_mono follows)
    omega

/-- With a base delay of a millisecond the thirty-third delay is not double the one before. -/
theorem not_delayFor_doubles :
    ¬ ∀ (policy : RetryPolicy) (attempt : UInt32),
      1 ≤ attempt →
      (policy.delayFor attempt).nanoseconds =
        min (policy.baseDelay.nanoseconds * 2 ^ (attempt.toNat - 1))
          policy.maxDelay.nanoseconds := by
  intro doubles
  have same :=
    doubles { baseDelay := .ofMilliseconds 1, maxDelay := .ofMilliseconds 5000000000 } 33
      (by decide)
  exact absurd same (by decide)

end RetryPolicy

end AgentWire.Client

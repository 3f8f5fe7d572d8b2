namespace AgentWire.Decimal

/-!
# Binary floating-point numbers of 64 bits

A finite double is a sign, a significand below 2 ^ 53 and an exponent of two.
All arithmetic is exact on natural numbers and rounds once, to the nearest
double, a tie going to the even significand.
-/

/-- A finite double: the significand times two to the exponent, with a sign. -/
structure Binary64 where
  negative : Bool
  significand : Nat
  exponent : Int
  deriving Repr, DecidableEq

namespace Binary64

/-- The exponent of the smallest positive double. -/
def leastExponent : Int := -1074

/-- The exponent of the largest doubles. -/
def greatestExponent : Int := 971

/-- Zero, with its sign. -/
def zero (negative : Bool) : Binary64 :=
  ⟨negative, 0, leastExponent⟩

/-- Zero of either sign. -/
def isZero (x : Binary64) : Bool :=
  x.significand == 0

/-- The integer next to a quotient, a tie going to the even one. -/
def roundDiv (num den : Nat) : Nat :=
  let quotient := num / den
  let rest := 2 * (num % den)
  if rest < den then quotient
  else if den < rest then quotient + 1
  else if quotient % 2 = 0 then quotient
  else quotient + 1

/-- The quotient of `num` and `den` in units of two to `exponent`, rounded. -/
def inUnits (num den : Nat) (exponent : Int) : Nat :=
  match exponent with
  | .ofNat up => roundDiv num (den * Nat.pow 2 up)
  | .negSucc down => roundDiv (num * Nat.pow 2 (down + 1)) den

/--
The double nearest to `num / den`, for a positive `den`.  There is none where
the quotient rounds past the largest double.
-/
def nearest?
    (negative : Bool)
    (num den : Nat) :
    Option Binary64 :=
  if num = 0 then
    some (zero negative)
  else
    let guess : Int := (Nat.log2 num : Int) - (Nat.log2 den : Int) - 53
    let fine := if guess < leastExponent then leastExponent else guess
    let exponent :=
      if inUnits num den fine < Nat.pow 2 53 then fine
      else if inUnits num den (fine + 1) < Nat.pow 2 53 then fine + 1
      else fine + 2
    if greatestExponent < exponent then
      none
    else
      some ⟨negative, inUnits num den exponent, exponent⟩

/-- The magnitude of a double as a numerator and a denominator. -/
def ratio (x : Binary64) : Nat × Nat :=
  match x.exponent with
  | .ofNat up => (x.significand * Nat.pow 2 up, 1)
  | .negSucc down => (x.significand, Nat.pow 2 (down + 1))

/-- The product of a double with the magnitude of another. -/
def times? (x y : Binary64) : Option Binary64 :=
  nearest? x.negative (x.ratio.1 * y.ratio.1) (x.ratio.2 * y.ratio.2)

/-- The quotient of a double by the magnitude of another. -/
def over? (x y : Binary64) : Option Binary64 :=
  nearest? x.negative (x.ratio.1 * y.ratio.2) (x.ratio.2 * y.ratio.1)

/-- The largest power of ten that a double comes near to. -/
def greatestPower : Nat := 308

/-- Divide by ten to `power`, in steps that a double can hold. -/
def shrink? (x : Binary64) : Nat → Nat → Option Binary64
  | 0, _ => some (zero x.negative)
  | steps + 1, power =>
      if x.isZero then
        some x
      else if power ≤ greatestPower then do
        let scale ← nearest? false (Nat.pow 10 power) 1
        x.over? scale
      else do
        let scale ← nearest? false (Nat.pow 10 greatestPower) 1
        let smaller ← x.over? scale
        smaller.shrink? steps (power - greatestPower)

/--
The double read from a decimal significand of at most 64 bits and a power of
ten.  The significand is rounded first, then multiplied or divided by the
double nearest to the power.  Three steps shrink any such number to zero.
-/
def ofDecimal?
    (negative : Bool)
    (significand : Nat)
    (power : Int) :
    Option Binary64 := do
  let x ← nearest? negative significand 1
  match power with
  | .ofNat up =>
      if x.isZero then
        some x
      else if up ≤ greatestPower then do
        let scale ← nearest? false (Nat.pow 10 up) 1
        x.times? scale
      else
        none
  | .negSucc down => x.shrink? 4 (down + 1)

end Binary64

end AgentWire.Decimal

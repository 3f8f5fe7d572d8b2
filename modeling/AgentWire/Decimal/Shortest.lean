import AgentWire.Decimal.Binary64

namespace AgentWire.Decimal

/-!
# The shortest decimal of a double

A double is written with the fewest digits that read back as the same double;
of several such decimals the nearest is taken.  `Notation` says which powers
of ten are written out and which with an exponent.
-/

/-- A positive decimal: digits without a trailing zero, and a power of ten. -/
structure Digits where
  digits : Nat
  power : Int
  deriving Repr, DecidableEq

namespace Binary64

/-- A positive double and the bounds of what rounds to it, over one denominator. -/
structure Neighbourhood where
  low : Nat
  value : Nat
  high : Nat
  den : Nat
  closed : Bool
  deriving Repr, DecidableEq

/--
The numbers that round to a positive double.  Below a power of two the next
double is only half as far away.  The bounds belong to it when its significand
is even.
-/
def neighbourhood (x : Binary64) : Neighbourhood :=
  let half :=
    if x.significand = Nat.pow 2 52 ∧ leastExponent < x.exponent then 1 else 2
  let low := 4 * x.significand - half
  let value := 4 * x.significand
  let high := 4 * x.significand + 2
  let closed := x.significand % 2 == 0
  match x.exponent - 2 with
  | .ofNat up => ⟨low * Nat.pow 2 up, value * Nat.pow 2 up, high * Nat.pow 2 up, 1, closed⟩
  | .negSucc down => ⟨low, value, high, Nat.pow 2 (down + 1), closed⟩

/-- Whether `num / den` rounds to the double. -/
def Neighbourhood.holds
    (near : Neighbourhood)
    (num den : Nat) :
    Bool :=
  let scaled := num * near.den
  if near.closed then
    near.low * den ≤ scaled && scaled ≤ near.high * den
  else
    near.low * den < scaled && scaled < near.high * den

/-- How many more places than one the first nonzero decimal of a fraction stands behind the point. -/
def leadingZeros (num den : Nat) : Nat → Nat
  | 0 => 0
  | fuel + 1 => if den ≤ 10 * num then 0 else leadingZeros (10 * num) den fuel + 1

/-- The power of ten just above a positive quotient. -/
def magnitude (num den : Nat) : Int :=
  if den ≤ num then
    ((Nat.toDigits 10 (num / den)).length : Int)
  else
    -((leadingZeros num den 400 : Nat) : Int)

/-- Move trailing zeros of the digits into the power. -/
def stripZeros (digits : Nat) (power : Int) : Nat → Digits
  | 0 => ⟨digits, power⟩
  | fuel + 1 =>
      if digits % 10 = 0 then
        stripZeros (digits / 10) (power + 1) fuel
      else
        ⟨digits, power⟩

/--
The decimal in units of ten to `power` that rounds to the double and is
nearest to it, a tie going to the even digit.
-/
def onGrid?
    (near : Neighbourhood)
    (power : Int) :
    Option Nat :=
  let (unitNum, unitDen) : Nat × Nat :=
    match power with
    | .ofNat up => (Nat.pow 10 up, 1)
    | .negSucc down => (1, Nat.pow 10 (down + 1))
  let below := near.value * unitDen / (near.den * unitNum)
  let above := below + 1
  let holds := fun count : Nat => near.holds (count * unitNum) unitDen
  let remainder := 2 * (near.value * unitDen % (near.den * unitNum))
  let belowIsNearer :=
    remainder < near.den * unitNum ||
      (remainder == near.den * unitNum && below % 2 == 0)
  match holds below && below != 0, holds above with
  | true, true => some (if belowIsNearer then below else above)
  | true, false => some below
  | false, true => some above
  | false, false => none

/-- The first grid, from `count` digits on, that holds a decimal of the double. -/
def firstGrid
    (near : Neighbourhood)
    (top : Int)
    (count : Nat) :
    Nat → Digits
  | 0 => ⟨0, 0⟩
  | fuel + 1 =>
      let power := top - count
      match onGrid? near power with
      | some digits => stripZeros digits power 20
      | none => firstGrid near top (count + 1) fuel

/-- The shortest digits of a nonzero double. -/
def shortest (x : Binary64) : Digits :=
  let near := x.neighbourhood
  firstGrid near (magnitude near.value near.den) 1 17

end Binary64

/-- Which powers of ten are written without an exponent, and how a whole number ends. -/
structure Notation where
  leastPlain : Int
  firstWithExponent : Int
  wholeEnding : List Char

/-- The notation of JSON numbers: plain from 1e-5 up to 1e16, whole numbers with `.0`. -/
def Notation.json : Notation :=
  ⟨-5, 16, ['.', '0']⟩

/-- An exponent with the sign that it always carries. -/
def signedExponent (exponent : Int) : List Char :=
  match exponent with
  | .ofNat up => '+' :: Nat.toDigits 10 up
  | .negSucc down => '-' :: Nat.toDigits 10 (down + 1)

/-- A positive decimal in a notation. -/
def Digits.write
    (form : Notation)
    (decimal : Digits) :
    List Char :=
  let digits := Nat.toDigits 10 decimal.digits
  let exponent : Int := decimal.power + digits.length - 1
  if form.leastPlain ≤ exponent ∧ exponent < form.firstWithExponent then
    if 0 ≤ decimal.power then
      digits ++ List.replicate decimal.power.toNat '0' ++ form.wholeEnding
    else if 0 ≤ exponent then
      digits.take (exponent.toNat + 1) ++ '.' :: digits.drop (exponent.toNat + 1)
    else
      ['0', '.'] ++ List.replicate ((-exponent).toNat - 1) '0' ++ digits
  else
    digits.take 1
      ++ (if digits.length = 1 then [] else '.' :: digits.drop 1)
      ++ 'e' :: signedExponent exponent

/-- A double in a notation; zero keeps its sign. -/
def Binary64.write
    (form : Notation)
    (x : Binary64) :
    List Char :=
  let sign := if x.negative then ['-'] else []
  if x.isZero then
    sign ++ '0' :: form.wholeEnding
  else
    sign ++ x.shortest.write form

end AgentWire.Decimal

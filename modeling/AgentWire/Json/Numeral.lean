import AgentWire.Json.Draft

namespace AgentWire.Json

/-!
# Numerals

A numeral is collected character by character.  A whole numeral that fits 64
bits is kept exactly.  Any other one becomes a double: as many leading digits as
fit an unsigned word are kept, the others count only as powers of ten.
-/

/-- How far a numeral has been read. -/
inductive NumeralPart where
  | minus
  | zero
  | whole
  | point
  | fraction
  | mark
  | sign
  | exponent
  deriving Repr, DecidableEq

/-- A numeral in the making; digits are kept last first. -/
structure Numeral where
  negative : Bool
  whole : List Nat
  fraction : List Nat
  exponentNegative : Bool
  exponent : List Nat
  part : NumeralPart
  deriving Repr, DecidableEq

/-- What a character does to a numeral. -/
inductive NumeralStep where
  | more (numeral : Numeral)
  | ended
  | invalid
  deriving Repr, DecidableEq

/-- The value of a decimal digit. -/
def digit? (c : Char) : Option Nat :=
  if '0' ≤ c ∧ c ≤ '9' then
    some (c.toNat - 48)
  else
    none

namespace Numeral

/-- The numeral that starts with a character, if one does. -/
def start? (c : Char) : Option Numeral :=
  if c = '-' then
    some ⟨true, [], [], false, [], .minus⟩
  else
    (digit? c).map fun digit =>
      ⟨false, [digit], [], false, [], if digit = 0 then .zero else .whole⟩

/-- Go on to an exponent, or end. -/
def markOrEnd (numeral : Numeral) (c : Char) : NumeralStep :=
  if c = 'e' ∨ c = 'E' then
    .more { numeral with part := .mark }
  else
    .ended

/-- Go on to a fraction or an exponent, or end. -/
def pointOrEnd (numeral : Numeral) (c : Char) : NumeralStep :=
  if c = '.' then
    .more { numeral with part := .point }
  else
    numeral.markOrEnd c

/-- The first digit of an exponent is due. -/
def exponentDigit (numeral : Numeral) (c : Char) : NumeralStep :=
  match digit? c with
  | some digit => .more { numeral with exponent := [digit], part := .exponent }
  | none => .invalid

/-- The next character of a numeral. -/
def step (numeral : Numeral) (c : Char) : NumeralStep :=
  match numeral.part with
  | .minus =>
      match digit? c with
      | some digit =>
          .more { numeral with
            whole := [digit], part := if digit = 0 then .zero else .whole }
      | none => .invalid
  | .zero =>
      match digit? c with
      | some _ => .invalid
      | none => numeral.pointOrEnd c
  | .whole =>
      match digit? c with
      | some digit => .more { numeral with whole := digit :: numeral.whole }
      | none => numeral.pointOrEnd c
  | .point =>
      match digit? c with
      | some digit => .more { numeral with fraction := [digit], part := .fraction }
      | none => .invalid
  | .fraction =>
      match digit? c with
      | some digit => .more { numeral with fraction := digit :: numeral.fraction }
      | none => numeral.markOrEnd c
  | .mark =>
      if c = '+' then
        .more { numeral with part := .sign }
      else if c = '-' then
        .more { numeral with exponentNegative := true, part := .sign }
      else
        numeral.exponentDigit c
  | .sign => numeral.exponentDigit c
  | .exponent =>
      match digit? c with
      | some digit => .more { numeral with exponent := digit :: numeral.exponent }
      | none => .ended

/-- Whether a numeral may end here. -/
def complete (numeral : Numeral) : Bool :=
  match numeral.part with
  | .zero | .whole | .fraction | .exponent => true
  | .minus | .point | .mark | .sign => false

/-- The number that digits spell. -/
def digitsValue (digits : List Nat) : Nat :=
  digits.foldl (fun value digit => value * 10 + digit) 0

/-- Read digits while the number that they spell fits an unsigned word; the rest is left. -/
def fitting (value : Nat) : List Nat → Nat × List Nat
  | [] => (value, [])
  | digit :: rest =>
      if value * 10 + digit < UInt64.size then
        fitting (value * 10 + digit) rest
      else
        (value, digit :: rest)

/-- The integer that a whole numeral spells, if it is kept exactly. -/
def integer? (numeral : Numeral) : Option Integer :=
  let magnitude : Int := digitsValue numeral.whole.reverse
  if numeral.part = .zero ∨ numeral.part = .whole then
    if numeral.negative then
      if magnitude = 0 then none else Integer.ofInt? (-magnitude)
    else
      Integer.ofInt? magnitude
  else
    none

/-- The double that a numeral spells, if it is in range. -/
def double? (numeral : Numeral) : Option Decimal.Binary64 :=
  let fraction := numeral.fraction.reverse
  let (kept, dropped) := fitting 0 numeral.whole.reverse
  let (significand, left) := fitting kept fraction
  let places := fraction.length - left.length
  let exponent : Int := digitsValue numeral.exponent.reverse
  let signedExponent := if numeral.exponentNegative then -exponent else exponent
  Decimal.Binary64.ofDecimal? numeral.negative significand
    ((dropped.length : Int) - (places : Int) + signedExponent)

/-- The number that a complete numeral spells, if it is in range. -/
def value? (numeral : Numeral) : Option Number :=
  match numeral.integer? with
  | some exact => some (.integer exact)
  | none => numeral.double?.map .double

/-- A complete numeral as a draft. -/
def draft (numeral : Numeral) : Draft :=
  match numeral.value? with
  | some value => .number value
  | none => .spoilt .numberOutOfRange

end Numeral

end AgentWire.Json

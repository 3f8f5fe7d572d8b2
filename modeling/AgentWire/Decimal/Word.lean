namespace AgentWire.Decimal

/-!
# Unsigned words in decimal

A word is written in decimal digits, with an optional plus sign.  The digits are
read from the left, and the first thing that is wrong is what is reported.
-/

/-- Why a text is no word of the wanted size. -/
inductive WordFault where
  | empty
  | invalidDigit
  | tooLarge
  deriving Repr, DecidableEq

namespace WordFault

/-- The wording of a fault. -/
def message : WordFault → String
  | .empty => "cannot parse integer from empty string"
  | .invalidDigit => "invalid digit found in string"
  | .tooLarge => "number too large to fit in target type"

end WordFault

/-- Read digits behind a value that stays below a bound. -/
def readDigits (bound value : Nat) : List Char → Except WordFault Nat
  | [] => .ok value
  | c :: rest =>
      if '0' ≤ c ∧ c ≤ '9' then
        let next := value * 10 + (c.toNat - 48)
        if next < bound then readDigits bound next rest else .error .tooLarge
      else
        .error .invalidDigit

/-- Read a word below a bound. -/
def readWord (bound : Nat) (text : String) : Except WordFault Nat :=
  match text.toList with
  | [] => .error .empty
  | ['+'] => .error .invalidDigit
  | '+' :: digits => readDigits bound 0 digits
  | digits => readDigits bound 0 digits

/-- Read a word of 32 bits. -/
def readWord32 (text : String) : Except WordFault Nat :=
  readWord UInt32.size text

/-- Read a word of 64 bits. -/
def readWord64 (text : String) : Except WordFault Nat :=
  readWord UInt64.size text

end AgentWire.Decimal

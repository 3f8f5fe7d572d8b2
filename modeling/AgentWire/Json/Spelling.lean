import AgentWire.Json.Draft

namespace AgentWire.Json

/-!
# Strings in the making

The characters between two quotes, one glyph at a time.  A broken surrogate pair
spoils a string and does not end it: one who passes over the string reads on.
-/

/-- Where in an escape a string stands. -/
inductive Escape where
  | plain
  | backslash
  | unit (seen : Nat) (value : Option Nat) (lead : Option Nat)
  | lead (unit : Nat)
  | leadBackslash (unit : Nat)
  deriving Repr, DecidableEq

/-- A string in the making; its characters are kept last first. -/
structure Spelling where
  reversed : List Char
  flaw : Option Flaw
  stray : Bool
  escape : Escape
  deriving Repr, DecidableEq

/-- What a glyph does to a string. -/
inductive SpellingStep where
  | more (spelling : Spelling)
  | ended (spelling : Spelling)
  | broken (spot : Break)
  deriving Repr, DecidableEq

namespace Spelling

/-- A string after its opening quote. -/
def start : Spelling :=
  ⟨[], none, false, .plain⟩

/-- Add a character. -/
def push (spelling : Spelling) (c : Char) : Spelling :=
  { spelling with reversed := c :: spelling.reversed, escape := .plain }

/-- Spoil a string; its first flaw stays. -/
def spoil (spelling : Spelling) (flaw : Flaw) : Spelling :=
  { spelling with flaw := some (spelling.flaw.getD flaw), escape := .plain }

/-- The string stops making sense; a reader has stopped at an earlier flaw. -/
def breakOff (spelling : Spelling) (flaw : Flaw) : SpellingStep :=
  .broken { read := spelling.flaw.getD flaw, passed := flaw }

/-- Add the character of a complete escape of one unit, or of the second unit of a pair. -/
def addUnit
    (spelling : Spelling)
    (lead : Option Nat)
    (unit : Nat) :
    Spelling :=
  if spelling.flaw.isSome then
    { spelling with escape := .plain }
  else
    match lead with
    | some first =>
        if 0xDC00 ≤ unit ∧ unit ≤ 0xDFFF then
          spelling.push (Char.ofNat (0x10000 + (first - 0xD800) * 0x400 + (unit - 0xDC00)))
        else
          spelling.spoil .loneSurrogate
    | none =>
        if 0xDC00 ≤ unit ∧ unit ≤ 0xDFFF then
          spelling.spoil .loneSurrogate
        else if 0xD800 ≤ unit ∧ unit ≤ 0xDBFF then
          { spelling with escape := .lead unit }
        else
          spelling.push (Char.ofNat unit)

/-- A glyph outside an escape. -/
def stepPlain (spelling : Spelling) : Text.Glyph → SpellingStep
  | .stray _ => .more { spelling with stray := true, escape := .plain }
  | .char c =>
      if c = '"' then .ended spelling
      else if c = '\\' then .more { spelling with escape := .backslash }
      else if c.toNat < 32 then spelling.breakOff .controlCharacter
      else .more (spelling.push c)

/-- A glyph after a backslash. -/
def stepBackslash (spelling : Spelling) : Text.Glyph → SpellingStep
  | .stray _ => spelling.breakOff .invalidEscape
  | .char c =>
      if c = '"' ∨ c = '\\' ∨ c = '/' then .more (spelling.push c)
      else if c = 'b' then .more (spelling.push '\x08')
      else if c = 'f' then .more (spelling.push '\x0c')
      else if c = 'n' then .more (spelling.push '\n')
      else if c = 'r' then .more (spelling.push '\r')
      else if c = 't' then .more (spelling.push '\t')
      else if c = 'u' then .more { spelling with escape := .unit 0 (some 0) none }
      else spelling.breakOff .invalidEscape

/-- How many bytes a glyph takes. -/
def glyphSize : Text.Glyph → Nat
  | .char c => c.utf8Size
  | .stray _ => 1

/-- The value of a unit after one more of its digits, while all are digits. -/
def unitDigit? (value : Option Nat) : Text.Glyph → Option Nat
  | .stray _ => none
  | .char c => do
      let soFar ← value
      let digit ← Text.hexValue? c
      some (16 * soFar + digit)

/-- The next glyph of a string. -/
def step (spelling : Spelling) (glyph : Text.Glyph) : SpellingStep :=
  match spelling.escape with
  | .plain => spelling.stepPlain glyph
  | .backslash => spelling.stepBackslash glyph
  | .unit seen value lead =>
      let seen' := seen + glyphSize glyph
      let value' := unitDigit? value glyph
      if seen' < 4 then
        .more { spelling with escape := .unit seen' value' lead }
      else
        match value' with
        | some unit => .more (spelling.addUnit lead unit)
        | none => spelling.breakOff .invalidEscape
  | .lead unit =>
      if glyph = .char '\\' then
        .more { spelling with escape := .leadBackslash unit }
      else
        (spelling.spoil .endInPair).stepPlain glyph
  | .leadBackslash unit =>
      if glyph = .char 'u' then
        .more { spelling with escape := .unit 0 (some 0) (some unit) }
      else
        (spelling.spoil .endInPair).stepBackslash glyph

/-- Why a finished string cannot be read, if it cannot. -/
def defect? (spelling : Spelling) : Option Flaw :=
  match spelling.flaw with
  | some flaw => some flaw
  | none => if spelling.stray then some .invalidCodePoint else none

/-- The text of a finished string. -/
def text (spelling : Spelling) : String :=
  String.ofList spelling.reversed.reverse

/-- A finished string as a value. -/
def draft (spelling : Spelling) : Draft :=
  match spelling.defect? with
  | some flaw => .spoilt flaw
  | none => .string spelling.text

/-- A finished string as a name. -/
def key (spelling : Spelling) : Key :=
  match spelling.defect? with
  | some flaw => .spoilt flaw
  | none => .name spelling.text

end Spelling

end AgentWire.Json

import AgentWire.Json.Spelling
import AgentWire.Json.Writer

namespace AgentWire

/-!
# Written strings are spelt

The characters of a written string spell it, and no other character ends it.
-/

namespace Text

theorem hexValue?_hexDigit
    {value : Nat}
    (small : value < 16) :
    hexValue? (hexDigit value) = some value :=
  (by decide : ∀ digit : Fin 16, hexValue? (hexDigit digit) = some digit.val) ⟨value, small⟩

theorem utf8Size_hexDigit
    {value : Nat}
    (small : value < 16) :
    (hexDigit value).utf8Size = 1 :=
  (by decide : ∀ digit : Fin 16, (hexDigit digit).utf8Size = 1) ⟨value, small⟩

end Text

namespace Json.Spelling

/-- A string in which nothing is wrong so far; its characters are last first. -/
def clean (reversed : List Char) : Spelling :=
  ⟨reversed, none, false, .plain⟩

/-- The string after one more character, unless it ends or breaks it. -/
def next? (spelling : Spelling) (c : Char) : Option Spelling :=
  match spelling.step (.char c) with
  | .more more => some more
  | _ => none

/-- The string after some more characters, unless they end or break it. -/
def spell? (spelling : Spelling) (chars : List Char) : Option Spelling :=
  chars.foldlM next? spelling

theorem spell?_cons
    {spelling more : Spelling}
    {c : Char}
    (goesOn : spelling.step (.char c) = .more more)
    (rest : List Char) :
    spelling.spell? (c :: rest) = more.spell? rest := by
  simp [spell?, next?, goesOn]

theorem spell?_append
    {spelling more : Spelling}
    {first : List Char}
    (spelt : spelling.spell? first = some more)
    (rest : List Char) :
    spelling.spell? (first ++ rest) = more.spell? rest := by
  rw [spell?] at spelt
  rw [spell?, List.foldlM_append, spelt]
  rfl

/-- A short escape spells the character that its letter means. -/
theorem spell?_letter
    {letter c : Char}
    (means :
      ∀ spelling : Spelling, spelling.stepBackslash (.char letter) = .more (spelling.push c))
    (reversed : List Char) :
    (clean reversed).spell? ['\\', letter] = some (clean (c :: reversed)) := by
  have opened :
      (clean reversed).step (.char '\\') =
        .more { clean reversed with escape := .backslash } :=
    rfl
  have closed :
      Spelling.step { clean reversed with escape := .backslash } (.char letter) =
        .more (clean (c :: reversed)) :=
    means _
  rw [spell?_cons opened, spell?_cons closed]
  rfl

/-- A control character is spelt by its number. -/
theorem spell?_control
    {c : Char}
    (control : c.toNat < 32)
    (reversed : List Char) :
    (clean reversed).spell?
        ['\\', 'u', '0', '0', Text.hexDigit (c.toNat / 16), Text.hexDigit (c.toNat % 16)] =
      some (clean (c :: reversed)) := by
  have high : c.toNat / 16 < 16 := by
    omega
  have low : c.toNat % 16 < 16 :=
    Nat.mod_lt _ (by decide)
  -- The first four characters open an escape, which the two digits behind them fill.
  have opened :
      (clean reversed).spell? ['\\', 'u', '0', '0'] =
        some { clean reversed with escape := .unit 2 (some 0) none } :=
    rfl
  have third :
      Spelling.step { clean reversed with escape := .unit 2 (some 0) none }
          (.char (Text.hexDigit (c.toNat / 16))) =
        .more { clean reversed with escape := .unit 3 (some (c.toNat / 16)) none } := by
    simp [step, glyphSize, Text.utf8Size_hexDigit high, unitDigit?,
      Text.hexValue?_hexDigit high]
  have value : 16 * (c.toNat / 16) + c.toNat % 16 = c.toNat :=
    Nat.div_add_mod _ _
  have fourth :
      Spelling.step { clean reversed with escape := .unit 3 (some (c.toNat / 16)) none }
          (.char (Text.hexDigit (c.toNat % 16))) =
        .more (clean (c :: reversed)) := by
    have noSurrogate : ¬(0xDC00 ≤ c.toNat ∧ c.toNat ≤ 0xDFFF) := by
      omega
    have noLead : ¬(0xD800 ≤ c.toNat ∧ c.toNat ≤ 0xDBFF) := by
      omega
    simp only [step, glyphSize, Text.utf8Size_hexDigit low, unitDigit?,
      Text.hexValue?_hexDigit low, Option.bind_eq_bind, Option.bind_some, value]
    simp [addUnit, noSurrogate, noLead, push, clean]
  have split :
      ['\\', 'u', '0', '0', Text.hexDigit (c.toNat / 16), Text.hexDigit (c.toNat % 16)] =
        ['\\', 'u', '0', '0'] ++
          [Text.hexDigit (c.toNat / 16), Text.hexDigit (c.toNat % 16)] :=
    rfl
  rw [split, spell?_append opened, spell?_cons third, spell?_cons fourth]
  rfl

/-- A character that is written spells itself. -/
theorem spell?_writeChar
    (c : Char)
    (reversed : List Char) :
    (clean reversed).spell? (writeChar c) = some (clean (c :: reversed)) := by
  unfold writeChar
  -- The first seven cases are the characters that have a letter of their own.
  iterate 7
    split
    · rename_i lettered
      subst lettered
      exact spell?_letter (fun _ => rfl) reversed
  split
  · rename_i control
    exact spell?_control control reversed
  · rename_i noQuote noBackslash _ _ _ _ _ plain
    have goesOn :
        (clean reversed).step (.char c) = .more (clean (c :: reversed)) := by
      simp only [step, clean, stepPlain, noQuote, noBackslash, plain, if_false, push]
    rw [spell?_cons goesOn]
    rfl

/-- The written characters of a text spell it. -/
theorem spell?_flatMap
    (text reversed : List Char) :
    (clean reversed).spell? (text.flatMap writeChar) =
      some (clean (text.reverse ++ reversed)) := by
  induction text generalizing reversed with
  | nil =>
      rfl
  | cons c rest inductionHypothesis =>
      rw [List.flatMap_cons, spell?_append (spell?_writeChar c reversed), inductionHypothesis]
      simp

/-- The characters of a text between its quotes spell it. -/
theorem spell?_text (text : String) :
    start.spell? (text.toList.flatMap writeChar) = some (clean text.toList.reverse) := by
  simpa [start, clean] using spell?_flatMap text.toList []

theorem step_quote (reversed : List Char) :
    (clean reversed).step (.char '"') = .ended (clean reversed) :=
  rfl

theorem draft_clean (text : String) :
    (clean text.toList.reverse).draft = .string text := by
  simp [draft, defect?, clean, Spelling.text]

theorem key_clean (text : String) :
    (clean text.toList.reverse).key = .name text := by
  simp [key, defect?, clean, Spelling.text]

end Json.Spelling

end AgentWire

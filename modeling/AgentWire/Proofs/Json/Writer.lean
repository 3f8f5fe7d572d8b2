import AgentWire.Json.Writer

namespace AgentWire.Json

/-!
# Compact texts are one line

No control character stands in the text of a document without doubles, so a text
can be a line of a file.  No text is empty.
-/

/-- Characters of which none is a control character. -/
def Plain (text : List Char) : Prop :=
  ∀ c ∈ text, 32 ≤ c.toNat

namespace Plain

variable
  {first second : List Char}
  {c : Char}

theorem nil : Plain [] := by
  simp [Plain]

theorem cons (head : 32 ≤ c.toNat) (tail : Plain first) : Plain (c :: first) := by
  simpa [Plain, head] using tail

theorem append (before : Plain first) (behind : Plain second) : Plain (first ++ second) := by
  intro c member
  rcases List.mem_append.mp member with member | member
  · exact before c member
  · exact behind c member

theorem not_newline (plain : Plain first) : '\n' ∉ first :=
  fun member => absurd (plain '\n' member) (by decide)

theorem not_return (plain : Plain first) : '\r' ∉ first :=
  fun member => absurd (plain '\r' member) (by decide)

end Plain

theorem plain_hexDigit : ∀ value < 16, 32 ≤ (Text.hexDigit value).toNat := by
  decide

/-- A character is written without control characters, whichever it is. -/
theorem plain_writeChar (c : Char) : Plain (writeChar c) := by
  unfold writeChar
  repeat' split
  iterate 7 (next => simp [Plain])
  · next small =>
      have high := plain_hexDigit (c.toNat / 16) (by omega)
      have low := plain_hexDigit (c.toNat % 16) (by omega)
      simp [Plain, high, low]
  · next large => simpa [Plain] using large

/-- A string is written without control characters. -/
theorem plain_writeString (text : String) : Plain (writeString text) := by
  have escaped : Plain (text.toList.flatMap writeChar) := by
    intro c member
    obtain ⟨source, -, member⟩ := List.mem_flatMap.mp member
    exact plain_writeChar source c member
  exact (escaped.append (by simp [Plain])).cons (by decide)

/-- The digits of a number are no control characters. -/
theorem plain_toDigits (value : Nat) : Plain (Nat.toDigits 10 value) := by
  intro c member
  have digit := Nat.isDigit_of_mem_toDigits (by decide) (by decide) member
  simp only [Char.isDigit, Bool.and_eq_true, decide_eq_true_eq] at digit
  have low : 48 ≤ c.toNat := UInt32.le_iff_toNat_le.mp digit.1
  omega

/-- An integer is written without control characters. -/
theorem plain_writeInteger (value : Int) : Plain (writeInteger value) := by
  cases value with
  | ofNat value => exact plain_toDigits value
  | negSucc value => exact (plain_toDigits (value + 1)).cons (by decide)

mutual

/-- A document without doubles is written without control characters. -/
theorem plain_write
    (document : Json)
    (whole : document.wholeNumbers = true) :
    Plain document.write := by
  cases document with
  | null => simp [write, Plain]
  | bool value => cases value <;> simp [write, Plain]
  | number value =>
      cases value with
      | integer kept => exact plain_writeInteger kept.value
      | double x => simp [wholeNumbers] at whole
  | string value => exact plain_writeString value
  | array items =>
      rw [wholeNumbers] at whole
      rw [write]
      exact (plain_writeItems items whole).cons (by decide)
  | object members =>
      rw [wholeNumbers] at whole
      rw [write]
      exact (plain_writeMembers members whole).cons (by decide)

theorem plain_writeItems
    (items : List Json)
    (whole : wholeNumbersItems items = true) :
    Plain (writeItems items) := by
  cases items with
  | nil => simp [writeItems, Plain]
  | cons item rest =>
      rw [wholeNumbersItems, Bool.and_eq_true] at whole
      rw [writeItems]
      exact (plain_write item whole.1).append (plain_writeMoreItems rest whole.2)

theorem plain_writeMoreItems
    (items : List Json)
    (whole : wholeNumbersItems items = true) :
    Plain (writeMoreItems items) := by
  cases items with
  | nil => simp [writeMoreItems, Plain]
  | cons item rest =>
      rw [wholeNumbersItems, Bool.and_eq_true] at whole
      rw [writeMoreItems]
      exact ((plain_write item whole.1).append
        (plain_writeMoreItems rest whole.2)).cons (by decide)

theorem plain_writeMembers
    (members : List (String × Json))
    (whole : wholeNumbersMembers members = true) :
    Plain (writeMembers members) := by
  cases members with
  | nil => simp [writeMembers, Plain]
  | cons member rest =>
      obtain ⟨name, value⟩ := member
      rw [wholeNumbersMembers, Bool.and_eq_true] at whole
      rw [writeMembers]
      have first := (plain_write value whole.1).cons (c := ':') (by decide)
      exact ((plain_writeString name).append first).append (plain_writeMoreMembers rest whole.2)

theorem plain_writeMoreMembers
    (members : List (String × Json))
    (whole : wholeNumbersMembers members = true) :
    Plain (writeMoreMembers members) := by
  cases members with
  | nil => simp [writeMoreMembers, Plain]
  | cons member rest =>
      obtain ⟨name, value⟩ := member
      rw [wholeNumbersMembers, Bool.and_eq_true] at whole
      rw [writeMoreMembers]
      have first := (plain_write value whole.1).cons (c := ':') (by decide)
      have all := ((plain_writeString name).append first).append
        (plain_writeMoreMembers rest whole.2)
      exact all.cons (by decide)

end

end AgentWire.Json

namespace AgentWire.Decimal

theorem Digits.write_ne_nil (form : Notation) (decimal : Digits) : decimal.write form ≠ [] := by
  unfold Digits.write
  dsimp only
  split
  · split
    · simp
    · split <;>
        simp
  · simp

theorem Binary64.write_ne_nil (form : Notation) (x : Binary64) : x.write form ≠ [] := by
  unfold Binary64.write
  dsimp only
  split <;>
    simp [Digits.write_ne_nil]

end AgentWire.Decimal

namespace AgentWire.Json

/-- No document is written as nothing. -/
theorem write_ne_nil (document : Json) : document.write ≠ [] := by
  cases document with
  | bool value =>
      cases value <;>
        simp [write]
  | number value =>
      cases value with
      | integer whole =>
          rw [write, writeNumber]
          cases whole.value <;>
            simp [writeInteger]
      | double x =>
          exact x.write_ne_nil .json
  | null | string | array | object =>
      simp [write, writeString]

theorem text_ne_empty (document : Json) : document.text ≠ "" := by
  simp [text, write_ne_nil]

end AgentWire.Json

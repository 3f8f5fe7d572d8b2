import AgentWire.Json.Numeral
import AgentWire.Json.Writer

namespace AgentWire.Json.Numeral

/-!
# Written integers are kept exactly

The digits of an integer spell a whole numeral, and the numeral has its value.
-/

/-- The numeral after one more character, unless it ends or breaks it. -/
def next? (numeral : Numeral) (c : Char) : Option Numeral :=
  match numeral.step c with
  | .more more => some more
  | _ => none

/-- The numeral after some more characters, unless they end or break it. -/
def spell? (numeral : Numeral) (chars : List Char) : Option Numeral :=
  chars.foldlM next? numeral

/-- The numeral that some characters spell, unless they end or break it. -/
def ofChars? : List Char → Option Numeral
  | [] => none
  | c :: rest => (start? c).bind (·.spell? rest)

/-- A numeral before its first digit. -/
def unbegun (negative : Bool) : Numeral :=
  ⟨negative, [], [], false, [], .minus⟩

/-- A whole numeral of some digits, last first. -/
def ofDigits (negative : Bool) (digits : List Nat) : Numeral :=
  ⟨negative, digits, [], false, [], if digits = [0] then .zero else .whole⟩

theorem spell?_cons
    {numeral more : Numeral}
    {c : Char}
    (goesOn : numeral.step c = .more more)
    (rest : List Char) :
    numeral.spell? (c :: rest) = more.spell? rest := by
  simp [spell?, next?, goesOn]

theorem spell?_append
    {numeral more : Numeral}
    {first : List Char}
    (spelt : numeral.spell? first = some more)
    (rest : List Char) :
    numeral.spell? (first ++ rest) = more.spell? rest := by
  rw [spell?] at spelt
  rw [spell?, List.foldlM_append, spelt]
  rfl

theorem digit?_digitChar
    {digit : Nat}
    (small : digit < 10) :
    digit? (Nat.digitChar digit) = some digit :=
  (by decide : ∀ digit : Fin 10, digit? (Nat.digitChar digit) = some digit.val) ⟨digit, small⟩

/-- A further digit counts one, and the digits before it count ten times as much. -/
theorem digitsValue_concat
    (digits : List Nat)
    (digit : Nat) :
    digitsValue (digits ++ [digit]) = digitsValue digits * 10 + digit := by
  simp [digitsValue]

/-- A first digit starts a whole numeral. -/
theorem step_unbegun
    {digit : Nat}
    (small : digit < 10)
    (negative : Bool) :
    (unbegun negative).step (Nat.digitChar digit) = .more (ofDigits negative [digit]) := by
  simp [step, unbegun, ofDigits, digit?_digitChar small]

/-- A further digit of a numeral that does not start with zero. -/
theorem step_ofDigits
    {digit : Nat}
    {digits : List Nat}
    (small : digit < 10)
    (nonempty : digits ≠ [])
    (nonzero : digits ≠ [0])
    (negative : Bool) :
    (ofDigits negative digits).step (Nat.digitChar digit) =
      .more (ofDigits negative (digit :: digits)) := by
  simp [step, ofDigits, digit?_digitChar small, nonempty, nonzero]

/-- The digits of a number spell it. -/
theorem spell?_toDigits
    (negative : Bool)
    (value : Nat) :
    ∃ digits,
      digits ≠ [] ∧
        digitsValue digits.reverse = value ∧
        (unbegun negative).spell? (Nat.toDigits 10 value) =
          some (ofDigits negative digits) := by
  by_cases small : value < 10
  · refine ⟨[value], by simp, by simp [digitsValue], ?_⟩
    rw [Nat.toDigits_of_lt_base small, spell?_cons (step_unbegun small negative)]
    rfl
  · obtain ⟨digits, nonempty, valueShape, spelt⟩ := spell?_toDigits negative (value / 10)
    have nonzero : digits ≠ [0] := by
      rintro rfl
      have zero : digitsValue [0].reverse = 0 := rfl
      omega
    have last : value % 10 < 10 :=
      Nat.mod_lt _ (by decide)
    refine ⟨value % 10 :: digits, by simp, ?_, ?_⟩
    · rw [List.reverse_cons, digitsValue_concat, valueShape]
      omega
    · rw [Nat.toDigits_of_base_le (by decide) (Nat.not_lt.mp small), spell?_append spelt,
        spell?_cons (step_ofDigits last nonempty nonzero negative)]
      rfl
  termination_by value

/-- A digit starts the numeral without a sign. -/
theorem start?_of_step
    {c : Char}
    {numeral : Numeral}
    (goesOn : (unbegun false).step c = .more numeral) :
    start? c = some numeral := by
  simp only [step, unbegun] at goesOn
  split at goesOn
  · rename_i digit found
    have noSign : c ≠ '-' := by
      rintro rfl
      cases found
    cases goesOn
    simp [start?, noSign, found]
  · cases goesOn

/-- Characters that spell a numeral without a sign also start it. -/
theorem ofChars?_of_spell?
    {chars : List Char}
    {numeral : Numeral}
    (nonempty : chars ≠ [])
    (spelt : (unbegun false).spell? chars = some numeral) :
    ofChars? chars = some numeral := by
  cases chars with
  | nil =>
      exact absurd rfl nonempty
  | cons c rest =>
      cases stepped : (unbegun false).step c with
      | more more =>
          rw [spell?_cons stepped] at spelt
          rw [ofChars?, start?_of_step stepped]
          exact spelt
      | ended =>
          simp [spell?, next?, stepped] at spelt
      | invalid =>
          simp [spell?, next?, stepped] at spelt

/-- A whole numeral is drafted as the integer that its digits tell. -/
theorem draft_ofDigits
    {negative : Bool}
    {digits : List Nat}
    {integer : Integer}
    (value :
      integer.value =
        if negative then -(digitsValue digits.reverse : Int) else digitsValue digits.reverse)
    (signed : negative = true → digitsValue digits.reverse ≠ 0) :
    (ofDigits negative digits).draft = .number (.integer integer) := by
  have whole :
      (ofDigits negative digits).part = .zero ∨ (ofDigits negative digits).part = .whole := by
    simp only [ofDigits]
    split
    · exact .inl rfl
    · exact .inr rfl
  have fits : Integer.ofInt? integer.value = some integer := by
    simp [Integer.ofInt?, integer.low, integer.high]
  have kept : (ofDigits negative digits).integer? = some integer := by
    rw [value] at fits
    rw [integer?, if_pos whole, ← fits]
    cases negative with
    | false =>
        simp [ofDigits]
    | true =>
        have nonzero := signed rfl
        simp [ofDigits, nonzero]
  simp [draft, value?, kept]

/-- A written integer spells a whole numeral of its value. -/
theorem ofChars?_writeInteger (integer : Integer) :
    ∃ negative digits,
      ofChars? (writeInteger integer.value) = some (ofDigits negative digits) ∧
        (ofDigits negative digits).draft = .number (.integer integer) := by
  cases value : integer.value with
  | ofNat magnitude =>
      obtain ⟨digits, nonempty, valueShape, spelt⟩ := spell?_toDigits false magnitude
      refine ⟨false, digits, ofChars?_of_spell? Nat.toDigits_ne_nil spelt, ?_⟩
      apply draft_ofDigits
      · rw [value, valueShape]
        rfl
      · simp
  | negSucc magnitude =>
      obtain ⟨digits, nonempty, valueShape, spelt⟩ := spell?_toDigits true (magnitude + 1)
      refine ⟨true, digits, spelt, ?_⟩
      apply draft_ofDigits
      · rw [value, valueShape]
        rfl
      · omega

end AgentWire.Json.Numeral

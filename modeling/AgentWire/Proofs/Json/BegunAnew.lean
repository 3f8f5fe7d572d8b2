import AgentWire.Proofs.Json.EarlyEnd

namespace AgentWire.Json

/-!
# Texts in which an object begins anew

Behind a text that has opened an object and breaks off, another object is written from its
beginning.  Together they are no document: the second object is a value inside the first one, its
first name ends a string too early, or it is too much.  `Lost` is the state of a reader that
takes the second object into an escape of four digits, which it then breaks.
-/

namespace Spelling

variable {spelling : Spelling}

/-- A string in an escape of four digits, one of which was none. -/
def Ruined (spelling : Spelling) : Prop :=
  ∃ seen lead, spelling.escape = .unit seen none lead

/-- Such an escape goes on or breaks, and no glyph ends the string. -/
theorem Ruined.step
    (ruined : spelling.Ruined)
    (glyph : Text.Glyph) :
    (∃ more, spelling.step glyph = .more more ∧ more.Ruined) ∨
      ∃ spot, spelling.step glyph = .broken spot := by
  obtain ⟨seen, lead, escape⟩ := ruined
  have none : unitDigit? none glyph = none := by cases glyph <;> rfl
  simp only [Spelling.step, escape, none]
  split
  · exact .inl ⟨_, rfl, _, _, rfl⟩
  · exact .inr ⟨_, rfl⟩

/-- An opening brace is a character of the string, or it ruins or breaks an escape. -/
theorem step_brace (spelling : Spelling) :
    (∃ more, spelling.step (.char '\x7b') = .more more ∧
        (more.escape = .plain ∨ more.Ruined)) ∨
      ∃ spot, spelling.step (.char '\x7b') = .broken spot := by
  obtain ⟨reversed, flaw, stray, escape⟩ := spelling
  cases escape with
  | plain => exact .inl ⟨_, rfl, .inl rfl⟩
  | backslash => exact .inr ⟨_, rfl⟩
  | unit seen value lead =>
      have none : unitDigit? value (.char '\x7b') = none := by cases value <;> rfl
      simp only [Spelling.step, none]
      split
      · exact .inl ⟨_, rfl, .inr ⟨_, _, rfl⟩⟩
      · exact .inr ⟨_, rfl⟩
  | lead unit => exact .inl ⟨_, rfl, .inl rfl⟩
  | leadBackslash unit => exact .inr ⟨_, rfl⟩

/-- Outside an escape, a quote ends the string. -/
theorem step_quote_of_plain (plain : spelling.escape = .plain) :
    spelling.step (.char '"') = .ended spelling := by
  simp [Spelling.step, plain, stepPlain]

end Spelling

/-- No numeral goes on with an opening brace. -/
theorem Numeral.step_brace (numeral : Numeral) :
    numeral.step '\x7b' = .ended ∨ numeral.step '\x7b' = .invalid := by
  obtain ⟨negative, whole, fraction, exponentNegative, exponent, part⟩ := numeral
  have noDigit : digit? '\x7b' = none := by decide
  cases part <;>
    simp [Numeral.step, noDigit, pointOrEnd, markOrEnd, exponentDigit]

namespace Reader

variable
  {frames : List Frame}
  {reader : Reader}

section Words

/-- A reader inside a word has letters before it, none of which is an opening brace. -/
def Worded (reader : Reader) : Prop :=
  ∀ due value, reader.mode = .inWord due value → due ≠ [] ∧ '\x7b' ∉ due

/-- A reader that has put a value is in no word. -/
theorem worded_put (value : Draft) : Worded (put frames value) := by
  cases frames with
  | nil => simp [Worded, put]
  | cons frame outer => cases frame <;> simp [Worded, put]

theorem worded_stopAround (last : Draft) : Worded (stopAround frames last) := by
  simp [Worded, stopAround]

theorem worded_stopBetween (spot : Break) : Worded (stopBetween frames spot) := by
  cases frames <;> exact worded_stopAround _

theorem worded_stopAfterKey
    (key : Key)
    (spot : Break) :
    Worded (stopAfterKey frames key spot) := by
  unfold stopAfterKey
  split <;> exact worded_stopAround _

theorem worded_closeArray : Worded (closeArray frames) := by
  unfold closeArray
  split
  · exact worded_put _
  · exact worded_stopAround _

theorem worded_closeObject : Worded (closeObject frames) := by
  unfold closeObject
  split
  · exact worded_put _
  · exact worded_stopAround _

theorem worded_awaitValue (key : Key) : Worded (awaitValue frames key) := by
  unfold awaitValue
  split <;> simp [Worded]

/-- A reader that begins a word has the rest of it before it. -/
theorem worded_beginValue (c : Char) : Worded (beginValue frames c) := by
  unfold beginValue
  repeat' split
  case h_2 => exact worded_stopAround _
  all_goals simp +contextual [Worded]

/-- A token begins a word or none. -/
theorem Worded.token
    (worded : reader.Worded)
    (c : Char) :
    Worded (reader.token c) := by
  obtain ⟨frames, mode⟩ := reader
  cases mode with
  | value => exact worded_beginValue c
  | firstItem =>
      simp only [Reader.token]
      split
      · exact worded_closeArray
      · exact worded_beginValue c
  | nextItem =>
      simp only [Reader.token]
      split
      · exact worded_stopBetween _
      · exact worded_beginValue c
  | firstKey =>
      simp only [Reader.token]
      repeat' split
      · exact worded_closeObject
      · simp [Worded]
      · exact worded_stopBetween _
  | nextKey =>
      simp only [Reader.token]
      repeat' split
      · simp [Worded]
      · exact worded_stopBetween _
      · exact worded_stopBetween _
  | colon key =>
      simp only [Reader.token]
      split
      · exact worded_awaitValue key
      · exact worded_stopAfterKey key _
  | separator =>
      simp only [Reader.token]
      split
      · repeat' split
        · simp [Worded]
        · exact worded_closeArray
        · exact worded_stopBetween _
      · repeat' split
        · simp [Worded]
        · exact worded_closeObject
        · exact worded_stopBetween _
  | ended root => simp [Worded, Reader.token]
  | inKey | inString | inWord | inNumber | overrun | stopped => exact worded

theorem Worded.between
    (worded : reader.Worded)
    (glyph : Text.Glyph) :
    Worded (reader.between glyph) := by
  cases glyph with
  | stray byte => exact worded.token _
  | char c =>
      simp only [Reader.between]
      split
      · exact worded
      · exact worded.token c

/-- A glyph takes a word on or ends it. -/
theorem Worded.step
    (worded : reader.Worded)
    (glyph : Text.Glyph) :
    Worded (reader.step glyph) := by
  obtain ⟨frames, mode⟩ := reader
  cases mode with
  | inString spelling =>
      simp only [Reader.step]
      split
      · simp [Worded]
      · exact worded_put _
      · exact worded_stopAround _
  | inKey spelling =>
      simp only [Reader.step]
      split
      · simp [Worded]
      · simp [Worded, putKey]
      · exact worded_stopBetween _
  | inWord due value =>
      obtain ⟨some, other⟩ := worded due value rfl
      simp only [Reader.step]
      repeat' split
      · exact worded_put _
      · exact worded_put _
      · exact worded_stopAround _
      · simp_all [Worded]
      · exact worded_stopAround _
  | inNumber numeral =>
      simp only [Reader.step]
      repeat' split
      · simp [Worded]
      · exact (worded_put _).between _
      · exact worded_stopAround _
      · exact (worded_put _).between _
      · exact worded_stopAround _
  | overrun root | stopped root => exact worded
  | value | firstItem | nextItem | firstKey | nextKey | colon | separator | ended =>
      exact worded.between glyph

theorem Worded.readChars
    (worded : reader.Worded)
    (chars : List Char) :
    Worded (reader.readChars chars) := by
  induction chars generalizing reader with
  | nil => exact worded
  | cons c rest inductionHypothesis => exact inductionHypothesis (worded.step (.char c))

end Words

section Lost

/-- A reader that has stopped, or is in a string that can no longer end. -/
def Lost (reader : Reader) : Prop :=
  reader.Halted ∨
    reader.Inside ∧
      ∃ spelling : Spelling,
        spelling.Ruined ∧ (reader.mode = .inString spelling ∨ reader.mode = .inKey spelling)

/-- A reader that is lost stays lost. -/
theorem Lost.step
    (lost : reader.Lost)
    (glyph : Text.Glyph) :
    Lost (reader.step glyph) := by
  obtain ⟨root, rfl, breaks⟩ | ⟨inside, spelling, ruined, shape⟩ := lost
  · exact .inl ⟨root, rfl, breaks⟩
  · obtain ⟨frames, mode⟩ := reader
    rcases shape with rfl | rfl
    · simp only [Reader.step]
      obtain ⟨more, stepped, ruined⟩ | ⟨spot, stepped⟩ := ruined.step glyph
      · rw [stepped]
        exact .inr ⟨inside, more, ruined, .inl rfl⟩
      · rw [stepped]
        exact .inl (halted_stopInValue inside.2 spot)
    · obtain ⟨done, outer, rfl, around⟩ := inside
      simp only [Reader.step]
      obtain ⟨more, stepped, ruined⟩ | ⟨spot, stepped⟩ := ruined.step glyph
      · rw [stepped]
        exact .inr ⟨⟨done, outer, rfl, around⟩, more, ruined, .inr rfl⟩
      · rw [stepped]
        exact .inl (halted_stopBetween around)

/-- A reader that is lost stays lost, whatever comes. -/
theorem Lost.readChars
    (lost : reader.Lost)
    (chars : List Char) :
    Lost (reader.readChars chars) := by
  induction chars generalizing reader with
  | nil => exact lost
  | cons c rest inductionHypothesis => exact inductionHypothesis (lost.step (.char c))

/-- A reader that is lost comes to no whole value. -/
theorem Lost.not_whole (lost : reader.Lost) : ¬reader.sheet.root.Whole := by
  intro whole
  have sound : reader.Sound := by
    obtain halted | ⟨inside, -⟩ := lost
    · exact halted.sound
    · exact inside.sound
  obtain ⟨root, behind⟩ := sound.behind_of_whole whole
  obtain ⟨other, rfl, -⟩ | ⟨-, spelling, -, shape⟩ := lost
  · simp at behind
  · rcases behind with rfl | rfl <;> simp at shape

end Lost

section Anew

variable
  {spelling : Spelling}
  {c : Char}

/-- Behind a value inside an array or object, a token that is no delimiter stops the reader. -/
theorem halted_behindValue
    (inner : frames ≠ [])
    (around : Around frames)
    (value : Draft)
    (solid : isSpace c = false)
    (other : c ∉ [',', ':', ']', '\x7d']) :
    Halted ((put frames value).step (.char c)) := by
  simp only [List.mem_cons, List.not_mem_nil, or_false, not_or] at other
  obtain ⟨noComma, -, noBracket, noBrace⟩ := other
  rw [step_put, between, if_neg (by simp [solid])]
  cases frames with
  | nil => exact absurd rfl inner
  | cons frame outer =>
      cases frame with
      | items done | member done key | members done =>
          simp only [put, token, noComma, noBracket, noBrace, if_false]
          exact halted_stopBetween around.tail

/-- A string that takes a brace ends at the quote behind it, or can no longer end. -/
theorem lost_inString
    (inner : frames ≠ [])
    (around : Around frames)
    (solid : isSpace c = false)
    (other : c ∉ [',', ':', ']', '\x7d']) :
    Lost (readChars ⟨frames, .inString spelling⟩ ['\x7b', '"', c]) := by
  obtain ⟨more, stepped, next⟩ | ⟨spot, stepped⟩ := spelling.step_brace
  · have first :
        step ⟨frames, .inString spelling⟩ (.char '\x7b') = ⟨frames, .inString more⟩ := by
      simp [step, stepped]
    rw [readChars_cons, first]
    rcases next with plain | ruined
    · have ended :
          step ⟨frames, .inString more⟩ (.char '"') = put frames more.draft := by
        simp [step, Spelling.step_quote_of_plain plain]
      rw [readChars_cons, ended]
      exact .inl (halted_behindValue inner around _ solid other)
    · have lost : Lost ⟨frames, .inString more⟩ :=
        .inr ⟨⟨inner, around⟩, more, ruined, .inl rfl⟩
      exact lost.readChars ['"', c]
  · have stopped :
        step ⟨frames, .inString spelling⟩ (.char '\x7b') = stopInValue frames spot := by
      simp [step, stepped]
    rw [readChars_cons, stopped]
    exact Lost.readChars (.inl (halted_stopInValue around spot)) ['"', c]

/-- A name that takes a brace ends at the quote behind it, or can no longer end. -/
theorem lost_inKey
    {done : List (Key × Draft)}
    (around : Around frames)
    (solid : isSpace c = false)
    (other : c ∉ [',', ':', ']', '\x7d']) :
    Lost (readChars ⟨.members done :: frames, .inKey spelling⟩ ['\x7b', '"', c]) := by
  obtain ⟨more, stepped, next⟩ | ⟨spot, stepped⟩ := spelling.step_brace
  · have first :
        step ⟨.members done :: frames, .inKey spelling⟩ (.char '\x7b') =
          ⟨.members done :: frames, .inKey more⟩ := by
      simp [step, stepped]
    rw [readChars_cons, first]
    -- In plain text the quote ends the name, and no colon comes behind it.
    rcases next with plain | ruined
    · have ended :
          step ⟨.members done :: frames, .inKey more⟩ (.char '"') =
            ⟨.members done :: frames, .colon more.key⟩ := by
        simp [step, Spelling.step_quote_of_plain plain, putKey]
      have noColon : c ≠ ':' := by
        rintro rfl
        simp at other
      have halted : Halted (step ⟨.members done :: frames, .colon more.key⟩ (.char c)) := by
        simp only [step, between, solid, token, noColon, if_false, Bool.false_eq_true]
        exact halted_stopAfterKey around
      rw [readChars_cons, ended]
      exact .inl halted
    · have lost : Lost ⟨.members done :: frames, .inKey more⟩ :=
        .inr ⟨⟨done, frames, rfl, around⟩, more, ruined, .inr rfl⟩
      exact lost.readChars ['"', c]
  · have stopped :
        step ⟨.members done :: frames, .inKey spelling⟩ (.char '\x7b') =
          stopBetween (.members done :: frames) spot := by
      simp [step, stepped]
    rw [readChars_cons, stopped]
    exact Lost.readChars (.inl (halted_stopBetween around)) ['"', c]

/-- A reader that holds a value in an open array or object is inside of it. -/
theorem Holds.inside
    {draft : Draft}
    (holds : Holds frames draft reader)
    (inner : frames ≠ [])
    (around : Around frames) :
    reader.Inside := by
  cases holds with
  | put => exact inside_put inner around draft
  | number => exact ⟨inner, around⟩

/-- A value inside an array or object does not end what is around it. -/
theorem Inside.not_whole_of_value
    (inside : reader.Inside)
    (due : reader.mode = .value ∨ reader.mode = .firstItem ∨ reader.mode = .nextItem)
    {document : Json}
    (whole : document.wholeNumbers = true) :
    ¬(reader.readChars document.write).sheet.root.Whole := by
  obtain ⟨frames, mode⟩ := reader
  have held : frames ≠ [] ∧ Around frames := by
    rcases due with rfl | rfl | rfl
    · exact inside
    · obtain ⟨done, outer, rfl, around⟩ := inside
      exact ⟨by simp, around.cons (by simp)⟩
    · obtain ⟨done, outer, rfl, around⟩ := inside
      exact ⟨by simp, around.cons (by simp)⟩
  have read := readChars_write whole due frames []
  rw [List.append_nil] at read
  obtain ⟨root, stopped, breaks⟩ :=
    ((holds_write document whole frames).inside held.1 held.2).halted_settle
  rw [read, readChars, List.foldl_nil, sheet, stopped]
  exact breaks

/-- Where an object begins inside an array or object, a value may stand there, or all is lost. -/
theorem Inside.lost_of_anew
    (inside : reader.Inside)
    (worded : reader.Worded)
    (solid : isSpace c = false)
    (other : c ∉ [',', ':', ']', '\x7d']) :
    (reader.mode = .value ∨ reader.mode = .firstItem ∨ reader.mode = .nextItem) ∨
      Lost (reader.readChars ['\x7b', '"', c]) := by
  have stops (halted : Halted (reader.step (.char '\x7b'))) :
      Lost (reader.readChars ['\x7b', '"', c]) :=
    Lost.readChars (.inl halted) ['"', c]
  -- Where no value may begin, the brace halts the reader; only strings have to see more of it.
  obtain ⟨frames, mode⟩ := reader
  cases mode with
  | value => exact .inl (.inl rfl)
  | firstItem => exact .inl (.inr (.inl rfl))
  | nextItem => exact .inl (.inr (.inr rfl))
  | firstKey | nextKey =>
      obtain ⟨done, outer, rfl, around⟩ := inside
      exact .inr (stops (halted_stopBetween around))
  | separator =>
      obtain ⟨outer, ⟨done, rfl⟩ | ⟨done, rfl⟩, around⟩ := inside
      · exact .inr (stops (halted_stopBetween around))
      · exact .inr (stops (halted_stopBetween around))
  | colon key =>
      obtain ⟨done, outer, rfl, around⟩ := inside
      exact .inr (stops (halted_stopAfterKey around))
  | inString spelling => exact .inr (lost_inString inside.1 inside.2 solid other)
  | inKey spelling =>
      obtain ⟨done, outer, rfl, around⟩ := inside
      exact .inr (lost_inKey around solid other)
  | inWord due value =>
      obtain ⟨some, noBrace⟩ := worded due value rfl
      have halted : Halted (step ⟨frames, .inWord due value⟩ (.char '\x7b')) := by
        cases due with
        | nil => exact absurd rfl some
        | cons letter rest =>
            have different : '\x7b' ≠ letter := fun same => noBrace (same ▸ List.mem_cons_self)
            cases rest <;>
              simp only [step, Text.Glyph.char.injEq, different, if_false] <;>
              exact halted_stopInValue inside.2 _
      exact .inr (stops halted)
  | inNumber numeral =>
      have halted : Halted (step ⟨frames, .inNumber numeral⟩ (.char '\x7b')) := by
        obtain ended | invalid := numeral.step_brace
        · have behind :
              step ⟨frames, .inNumber numeral⟩ (.char '\x7b') =
                (put frames numeral.draft).step (.char '\x7b') := by
            rw [step_put]
            simp only [step, ended]
          rw [behind]
          exact halted_behindValue inside.1 inside.2 _ (by decide) (by decide)
        · simp only [step, invalid]
          exact halted_stopInValue inside.2 _
      exact .inr (stops halted)
  | ended | overrun | stopped => exact inside.elim

end Anew

end Reader

section Documents

variable
  {members : List (String × Json)}
  {start rest : List Char}
  {c : Char}

/--
A text that opens an object and has another object at its end is no document: it breaks off, or
something stands behind a whole one.
-/
theorem not_read_of_anew
    (whole : (object members).wholeNumbers = true)
    (written : (object members).write = '\x7b' :: '"' :: c :: rest)
    (solid : Reader.isSpace c = false)
    (other : c ∉ [',', ':', ']', '\x7d'])
    (opens : start.head? = some '\x7b') :
    ¬(readText (String.ofList (start ++ (object members).write))).root.Whole ∨
      (readText (String.ofList (start ++ (object members).write))).trailing = true := by
  obtain ⟨more, rfl⟩ := List.head?_eq_some_iff.mp opens
  have first : Reader.Inside (Reader.start.step (.char '\x7b')) :=
    ⟨[], [], rfl, by simp [Reader.Around]⟩
  have worded : Reader.start.Worded := by simp [Reader.Worded, Reader.start]
  rw [sheet_readText, List.cons_append, Reader.readChars_cons, Reader.readChars_append]
  have worded := (worded.step (.char '\x7b')).readChars more
  obtain inside | behind | halted := first.sound.readChars more
  · refine .inl ?_
    obtain due | lost := inside.lost_of_anew worded solid other
    · exact inside.not_whole_of_value due whole
    · rw [written]
      exact (lost.readChars rest).not_whole
  · exact .inr (behind.trailing (by rw [written]; exact List.mem_cons_self) (by decide))
  · have lost : Reader.Lost (((Reader.start.step (.char '\x7b')).readChars more)) := .inl halted
    exact .inl (lost.readChars _).not_whole

end Documents

end AgentWire.Json

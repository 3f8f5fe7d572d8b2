import AgentWire.Proofs.Json.PassOver

namespace AgentWire.Json

/-!
# Texts that end too early

The draft of the beginning of a written object breaks off, unless the beginning is the
whole.  `Sound` is the invariant of the reader behind it: inside an array or object the
frames are such that a break anywhere shows in the draft of the whole text.
-/

namespace Reader

/-- Frames around a value: none of them waits for a name. -/
def Around (frames : List Frame) : Prop :=
  ∀ frame ∈ frames, ∀ done, frame ≠ .members done

/-- A reader that has stopped, with a draft that shows it. -/
def Halted (reader : Reader) : Prop :=
  ∃ root, reader = ⟨[], .stopped root⟩ ∧ ¬root.Whole

/-- A reader inside an array or object. -/
def Inside (reader : Reader) : Prop :=
  match reader.mode with
  | .value | .inString _ | .inWord _ _ | .inNumber _ =>
      reader.frames ≠ [] ∧ Around reader.frames
  | .firstItem | .nextItem =>
      ∃ done outer, reader.frames = .items done :: outer ∧ Around outer
  | .firstKey | .nextKey | .inKey _ | .colon _ =>
      ∃ done outer, reader.frames = .members done :: outer ∧ Around outer
  | .separator =>
      ∃ outer,
        ((∃ done, reader.frames = .items done :: outer) ∨
          ∃ done, reader.frames = .members done :: outer) ∧
        Around outer
  | _ => False

/-- A reader behind a whole value. -/
def Behind (reader : Reader) : Prop :=
  ∃ root, reader = ⟨[], .ended root⟩ ∨ reader = ⟨[], .overrun root⟩

/-- A reader inside a value, behind it, or where the text has stopped making sense. -/
def Sound (reader : Reader) : Prop :=
  reader.Inside ∨ reader.Behind ∨ reader.Halted

section Stops

variable
  {frames : List Frame}
  {frame : Frame}
  {spot : Break}

theorem Around.cons
    (around : Around frames)
    (waits : ∀ done, frame ≠ .members done) :
    Around (frame :: frames) :=
  List.forall_mem_cons.mpr ⟨waits, around⟩

theorem Around.tail (around : Around (frame :: frames)) : Around frames :=
  (List.forall_mem_cons.mp around).2

/-- A member that breaks off shows in its object. -/
theorem not_whole_member
    {done : List (Key × Draft)}
    {key : Key}
    {last : Draft}
    (breaks : ¬last.Whole) :
    ¬((Frame.member done key).endingIn last).Whole := by
  intro whole
  exact breaks ((Draft.whole_object.mp whole).1 (key, last) (by simp))

/-- A part that breaks off shows in every frame around it. -/
theorem halted_stopAround
    (around : Around frames)
    {last : Draft}
    (breaks : ¬last.Whole) :
    Halted (stopAround frames last) := by
  induction frames generalizing last with
  | nil => exact ⟨last, rfl, breaks⟩
  | cons frame outer inductionHypothesis =>
      have framed : ¬(frame.endingIn last).Whole := by
        cases frame with
        | items done => simp [Frame.endingIn, breaks]
        | member done key => exact not_whole_member breaks
        | members done => exact absurd rfl (around _ List.mem_cons_self done)
      exact inductionHypothesis around.tail framed

/-- A reader that stops inside a value has halted. -/
theorem halted_stopInValue
    (around : Around frames)
    (spot : Break) :
    Halted (stopInValue frames spot) :=
  halted_stopAround around Draft.not_whole_broken

/-- A reader that stops between two parts has halted. -/
theorem halted_stopBetween (around : Around frames) :
    Halted (stopBetween (frame :: frames) spot) := by
  refine halted_stopAround around ?_
  cases frame with
  | member done key => exact not_whole_member Draft.not_whole_broken
  | items done => simp [Frame.stoppingAt]
  | members done => simp [Frame.stoppingAt]

/-- A reader that stops behind a name has halted. -/
theorem halted_stopAfterKey
    (around : Around frames)
    {done : List (Key × Draft)}
    {key : Key} :
    Halted (stopAfterKey (.members done :: frames) key spot) :=
  halted_stopAround around (not_whole_member Draft.not_whole_broken)

end Stops

section Steps

variable
  {frames : List Frame}
  {reader : Reader}

theorem Inside.sound (inside : reader.Inside) : Sound reader :=
  .inl inside

theorem Halted.sound (halted : reader.Halted) : Sound reader :=
  .inr (.inr halted)

/-- A value that is put into an open array or object leaves the reader inside. -/
theorem inside_put
    (inner : frames ≠ [])
    (around : Around frames)
    (value : Draft) :
    Inside (put frames value) := by
  cases frames with
  | nil => exact absurd rfl inner
  | cons frame outer =>
      cases frame with
      | items done => exact ⟨outer, .inl ⟨_, rfl⟩, around.tail⟩
      | member done key => exact ⟨outer, .inr ⟨_, rfl⟩, around.tail⟩
      | members done => exact ⟨outer, .inr ⟨_, rfl⟩, around.tail⟩

/-- A value that is put ends the text or leaves the reader inside. -/
theorem sound_put
    (around : Around frames)
    (value : Draft) :
    Sound (put frames value) := by
  cases frames with
  | nil => exact .inr (.inl ⟨value, .inl rfl⟩)
  | cons frame outer => exact (inside_put (by simp) around value).sound

/-- A value that begins in an open array or object leaves the reader sound. -/
theorem sound_beginValue
    (inner : frames ≠ [])
    (around : Around frames)
    (c : Char) :
    Sound (beginValue frames c) := by
  unfold beginValue
  repeat' split
  · exact .inl ⟨inner, around⟩
  · exact .inl ⟨inner, around⟩
  · exact .inl ⟨inner, around⟩
  · exact .inl ⟨inner, around⟩
  · exact .inl ⟨_, _, rfl, around⟩
  · exact .inl ⟨_, _, rfl, around⟩
  · exact .inl ⟨inner, around⟩
  · exact (halted_stopInValue around _).sound

/-- Inside an array or object, a token leads on, closes what is open, or stops the reader. -/
theorem Inside.sound_token
    (inside : reader.Inside)
    (c : Char) :
    Sound (reader.token c) := by
  obtain ⟨frames, mode⟩ := reader
  -- A token that a mode does not expect stops the reader; the others lead on or close.
  cases mode with
  | value => exact sound_beginValue inside.1 inside.2 c
  | firstItem =>
      obtain ⟨done, outer, rfl, around⟩ := inside
      have inner : Around (.items done :: outer) := around.cons (by simp)
      simp only [token]
      split
      · exact sound_put around _
      · exact sound_beginValue (by simp) inner c
  | nextItem =>
      obtain ⟨done, outer, rfl, around⟩ := inside
      have inner : Around (.items done :: outer) := around.cons (by simp)
      simp only [token]
      split
      · exact (halted_stopBetween around).sound
      · exact sound_beginValue (by simp) inner c
  | firstKey =>
      obtain ⟨done, outer, rfl, around⟩ := inside
      simp only [token]
      repeat' split
      · exact sound_put around _
      · exact .inl ⟨_, _, rfl, around⟩
      · exact (halted_stopBetween around).sound
  | nextKey =>
      obtain ⟨done, outer, rfl, around⟩ := inside
      simp only [token]
      repeat' split
      · exact .inl ⟨_, _, rfl, around⟩
      · exact (halted_stopBetween around).sound
      · exact (halted_stopBetween around).sound
  | colon key =>
      obtain ⟨done, outer, rfl, around⟩ := inside
      simp only [token]
      split
      · exact .inl ⟨by simp [awaitValue], around.cons (by simp)⟩
      · exact (halted_stopAfterKey around).sound
  | separator =>
      obtain ⟨outer, ⟨done, rfl⟩ | ⟨done, rfl⟩, around⟩ := inside
      · simp only [token]
        repeat' split
        · exact .inl ⟨_, _, rfl, around⟩
        · exact sound_put around _
        · exact (halted_stopBetween around).sound
      · simp only [token]
        repeat' split
        · exact .inl ⟨_, _, rfl, around⟩
        · exact sound_put around _
        · exact (halted_stopBetween around).sound
  | inString spelling => exact .inl inside
  | inWord due value => exact .inl inside
  | inNumber numeral => exact .inl inside
  | inKey spelling => exact .inl inside
  | ended | overrun | stopped => exact inside.elim

/-- Between tokens, a glyph is passed over or begins a token. -/
theorem Inside.sound_between
    (inside : reader.Inside)
    (glyph : Text.Glyph) :
    Sound (reader.between glyph) := by
  cases glyph with
  | stray byte => exact inside.sound_token _
  | char c =>
      simp only [between]
      split
      · exact .inl inside
      · exact inside.sound_token c

/-- A reader inside a value stays inside, comes behind it or halts. -/
theorem Inside.sound_step
    (inside : reader.Inside)
    (glyph : Text.Glyph) :
    Sound (reader.step glyph) := by
  obtain ⟨frames, mode⟩ := reader
  cases mode with
  | inString spelling =>
      simp only [step]
      split
      · exact .inl inside
      · exact sound_put inside.2 _
      · exact (halted_stopInValue inside.2 _).sound
  | inKey spelling =>
      obtain ⟨done, outer, rfl, around⟩ := inside
      simp only [step]
      split
      · exact .inl ⟨_, _, rfl, around⟩
      · exact .inl ⟨_, _, rfl, around⟩
      · exact (halted_stopBetween around).sound
  | inWord due value =>
      have stops spot : Sound (stopInValue frames spot) := (halted_stopInValue inside.2 _).sound
      simp only [step]
      repeat' split
      · exact sound_put inside.2 _
      · exact sound_put inside.2 _
      · exact stops _
      · exact .inl inside
      · exact stops _
  | inNumber numeral =>
      have stops spot : Sound (stopInValue frames spot) := (halted_stopInValue inside.2 _).sound
      simp only [step]
      repeat' split
      · exact .inl inside
      · exact (inside_put inside.1 inside.2 _).sound_between _
      · exact stops _
      · exact (inside_put inside.1 inside.2 _).sound_between _
      · exact stops _
  | value | firstItem | nextItem | firstKey | nextKey | colon | separator =>
      exact inside.sound_between glyph
  | ended | overrun | stopped => exact inside.elim

/-- A reader behind a value stays there. -/
theorem Behind.step
    (behind : reader.Behind)
    (glyph : Text.Glyph) :
    Behind (reader.step glyph) := by
  obtain ⟨root, rfl | rfl⟩ := behind
  · have ended : step ⟨[], .ended root⟩ glyph = between ⟨[], .ended root⟩ glyph := rfl
    rw [ended]
    cases glyph with
    | stray byte => exact ⟨root, .inr rfl⟩
    | char c =>
        simp only [between]
        split
        · exact ⟨root, .inl rfl⟩
        · exact ⟨root, .inr rfl⟩
  · exact ⟨root, .inr rfl⟩

/-- A reader stays sound. -/
theorem Sound.step
    (sound : reader.Sound)
    (glyph : Text.Glyph) :
    Sound (reader.step glyph) := by
  obtain inside | behind | ⟨root, rfl, breaks⟩ := sound
  · exact inside.sound_step glyph
  · exact .inr (.inl (behind.step glyph))
  · exact .inr (.inr ⟨root, rfl, breaks⟩)

/-- A reader stays sound, whatever comes. -/
theorem Sound.readChars
    (sound : reader.Sound)
    (chars : List Char) :
    Sound (reader.readChars chars) := by
  induction chars generalizing reader with
  | nil => exact sound
  | cons c rest inductionHypothesis => exact inductionHypothesis (sound.step (.char c))

/-- Characters behind a value are noticed, whatever else comes. -/
theorem trailing_of_overrun
    (root : Draft)
    (chars : List Char) :
    (Reader.readChars ⟨[], .overrun root⟩ chars).sheet.trailing = true := by
  induction chars with
  | nil => rfl
  | cons c rest inductionHypothesis => exact inductionHypothesis

/-- Behind a whole value, anything but space is too much. -/
theorem Behind.trailing
    (behind : reader.Behind)
    {chars : List Char}
    {c : Char}
    (member : c ∈ chars)
    (solid : isSpace c = false) :
    (reader.readChars chars).sheet.trailing = true := by
  induction chars generalizing reader with
  | nil => cases member
  | cons first rest inductionHypothesis =>
      rcases List.mem_cons.mp member with rfl | later
      · obtain ⟨root, rfl | rfl⟩ := behind
        · have overrun : Reader.step ⟨[], .ended root⟩ (.char c) = ⟨[], .overrun root⟩ := by
            simp [Reader.step, between, solid, token]
          rw [readChars_cons, overrun]
          exact trailing_of_overrun root rest
        · exact trailing_of_overrun root _
      · exact inductionHypothesis (behind.step (.char first)) later

end Steps

section Ends

variable {reader : Reader}

/-- A text that ends inside an array or object has broken off. -/
theorem Inside.halted_stopAtEnd
    (inside : reader.Inside)
    (settled : ∀ numeral, reader.mode ≠ .inNumber numeral) :
    Halted reader.stopAtEnd := by
  obtain ⟨frames, mode⟩ := reader
  cases mode with
  | value | inString | inWord => exact halted_stopInValue inside.2 _
  | inNumber numeral => exact absurd rfl (settled numeral)
  | firstItem | nextItem =>
      obtain ⟨done, outer, rfl, around⟩ := inside
      exact halted_stopBetween around
  | firstKey | nextKey | inKey =>
      obtain ⟨done, outer, rfl, around⟩ := inside
      exact halted_stopBetween around
  | colon key =>
      obtain ⟨done, outer, rfl, around⟩ := inside
      exact halted_stopAfterKey around
  | separator =>
      obtain ⟨outer, ⟨done, rfl⟩ | ⟨done, rfl⟩, around⟩ := inside
      · exact halted_stopBetween around
      · exact halted_stopBetween around
  | ended | overrun | stopped => exact inside.elim

/-- At the end of the text, a reader inside an array or object stops. -/
theorem Inside.halted_settle (inside : reader.Inside) : Halted reader.settle.stopAtEnd := by
  by_cases numeric : ∃ numeral, reader.mode = .inNumber numeral
  · obtain ⟨frames, mode⟩ := reader
    obtain ⟨numeral, rfl⟩ := numeric
    obtain ⟨inner, around⟩ := inside
    simp only [settle]
    split
    · have put := inside_put inner around numeral.draft
      refine put.halted_stopAtEnd ?_
      cases frames with
      | nil => exact absurd rfl inner
      | cons frame outer => cases frame <;> simp [Reader.put]
    · obtain ⟨root, stopped, breaks⟩ :=
        halted_stopInValue around { read := .endInValue, passed := .invalidNumber }
      rw [stopped]
      exact ⟨root, rfl, breaks⟩
  · have settled : ∀ numeral, reader.mode ≠ .inNumber numeral :=
      fun numeral same => numeric ⟨numeral, same⟩
    have same : reader.settle = reader := by
      unfold settle
      split
      · next numeral mode => exact absurd mode (settled numeral)
      · rfl
    rw [same]
    exact inside.halted_stopAtEnd settled

/-- A reader whose draft does not break off is behind a whole value. -/
theorem Sound.behind_of_whole
    (sound : reader.Sound)
    (whole : reader.sheet.root.Whole) :
    reader.Behind := by
  have refute (halted : Halted reader.settle.stopAtEnd) : False := by
    obtain ⟨root, stopped, breaks⟩ := halted
    apply breaks
    simpa [sheet, stopped] using whole
  obtain inside | behind | ⟨root, rfl, breaks⟩ := sound
  · exact (refute inside.halted_settle).elim
  · exact behind
  · exact (refute ⟨root, rfl, breaks⟩).elim

end Ends

end Reader

section Documents

/-- The members of an object end with its closing brace. -/
theorem getLast?_writeMoreMembers (members : List (String × Json)) :
    (writeMoreMembers members).getLast? = some '\x7d' := by
  induction members with
  | nil => rw [writeMoreMembers, List.getLast?_singleton]
  | cons member rest inductionHypothesis =>
      rw [writeMoreMembers, List.getLast?_append, inductionHypothesis, Option.some_or]

/-- The last character of an object closes it. -/
theorem getLast?_write (members : List (String × Json)) :
    (object members).write.getLast? = some '\x7d' := by
  rw [write, List.getLast?_cons]
  cases members with
  | nil => rw [writeMembers, List.getLast?_singleton, Option.getD_some]
  | cons member rest =>
      rw [writeMembers, List.getLast?_append, getLast?_writeMoreMembers, Option.some_or,
        Option.getD_some]

/-- A text is read character by character. -/
theorem sheet_readText (chars : List Char) :
    readText (String.ofList chars) = (Reader.start.readChars chars).sheet := by
  rw [readText, readGlyphs, Text.glyphsOf, String.toList_ofList, List.foldl_map]
  rfl

/-- The beginning of a written object breaks off. -/
theorem not_whole_of_prefix
    {members : List (String × Json)}
    (whole : (object members).wholeNumbers = true)
    {start : List Char}
    (early : start <+: (object members).write)
    (short : start ≠ (object members).write) :
    ¬(readText (String.ofList start)).root.Whole := by
  obtain ⟨rest, split⟩ := early
  cases start with
  | nil => exact Draft.not_whole_broken
  | cons first more =>
      rw [sheet_readText, Reader.readChars_cons]
      intro unbroken
      have opened : first = '\x7b' := by
        rw [write, List.cons_append, List.cons.injEq] at split
        exact split.1
      subst opened
      have inside : Reader.Inside (Reader.start.step (.char '\x7b')) :=
        ⟨[], [], rfl, by simp [Reader.Around]⟩
      have behind := (inside.sound.readChars more).behind_of_whole unbroken
      -- What follows is not empty, so it closes the object once more.
      have closing : '\x7d' ∈ rest := by
        have last := getLast?_write members
        rw [← split, List.getLast?_append] at last
        cases ending : rest.getLast? with
        | some c =>
            rw [ending, Option.some_or, Option.some.injEq] at last
            exact last ▸ List.mem_of_getLast? ending
        | none =>
            rw [List.getLast?_eq_none_iff.mp ending, List.append_nil] at split
            exact absurd split short
      have trailing := behind.trailing closing (by decide)
      rw [← Reader.readChars_append, ← Reader.readChars_cons, ← List.cons_append, split,
        ← sheet_readText] at trailing
      have read : readText (String.ofList (object members).write) = ⟨_, false⟩ :=
        readText_text whole
      rw [read] at trailing
      cases trailing

end Documents

end AgentWire.Json

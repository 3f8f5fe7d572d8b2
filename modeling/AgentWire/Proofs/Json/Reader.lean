import AgentWire.Json.Reader
import AgentWire.Proofs.Json.Numeral
import AgentWire.Proofs.Json.Spelling
import AgentWire.Proofs.Text.Utf8

namespace AgentWire.Json

/-!
# Written documents are read back

The reader that is given the text of a document without doubles ends with the
draft of that document.
-/

namespace Reader

/-- The reader after some more characters. -/
def readChars (reader : Reader) (chars : List Char) : Reader :=
  chars.foldl (fun reader c => reader.step (.char c)) reader

/-- The reader after the characters of a value. -/
def readValue (frames : List Frame) : List Char → Reader
  | [] => ⟨frames, .value⟩
  | c :: rest => (beginValue frames c).readChars rest

theorem readChars_cons
    (reader : Reader)
    (c : Char)
    (rest : List Char) :
    reader.readChars (c :: rest) = (reader.step (.char c)).readChars rest :=
  rfl

theorem readChars_append
    (reader : Reader)
    (first rest : List Char) :
    reader.readChars (first ++ rest) = (reader.readChars first).readChars rest :=
  List.foldl_append

/-- What goes on through some states is read through their modes. -/
theorem readChars_foldlM
    {σ : Type}
    {next? : σ → Char → Option σ}
    {mode : σ → Mode}
    {frames : List Frame}
    (goesOn :
      ∀ state c next,
        next? state c = some next →
        step ⟨frames, mode state⟩ (.char c) = ⟨frames, mode next⟩)
    {chars : List Char}
    {state last : σ}
    (read : chars.foldlM next? state = some last) :
    readChars ⟨frames, mode state⟩ chars = ⟨frames, mode last⟩ := by
  induction chars generalizing state with
  | nil =>
      cases read
      rfl
  | cons c rest inductionHypothesis =>
      rw [List.foldlM_cons] at read
      obtain ⟨next, stepped, read⟩ := Option.bind_eq_some_iff.mp read
      rw [readChars_cons, goesOn state c next stepped, inductionHypothesis read]

/-- Characters that a string goes on with keep the reader in it. -/
theorem readChars_inString
    {spelling more : Spelling}
    {chars : List Char}
    (spelt : spelling.spell? chars = some more)
    (frames : List Frame) :
    readChars ⟨frames, .inString spelling⟩ chars = ⟨frames, .inString more⟩ := by
  refine readChars_foldlM ?_ spelt
  intro state c next stepped
  rw [Spelling.next?] at stepped
  split at stepped
  · rename_i goesOn
    cases stepped
    simp [step, goesOn]
  · cases stepped

/-- Characters that a name goes on with keep the reader in it. -/
theorem readChars_inKey
    {spelling more : Spelling}
    {chars : List Char}
    (spelt : spelling.spell? chars = some more)
    (frames : List Frame) :
    readChars ⟨frames, .inKey spelling⟩ chars = ⟨frames, .inKey more⟩ := by
  refine readChars_foldlM ?_ spelt
  intro state c next stepped
  rw [Spelling.next?] at stepped
  split at stepped
  · rename_i goesOn
    cases stepped
    simp [step, goesOn]
  · cases stepped

/-- Characters that a numeral goes on with keep the reader in it. -/
theorem readChars_inNumber
    {numeral more : Numeral}
    {chars : List Char}
    (spelt : numeral.spell? chars = some more)
    (frames : List Frame) :
    readChars ⟨frames, .inNumber numeral⟩ chars = ⟨frames, .inNumber more⟩ := by
  refine readChars_foldlM ?_ spelt
  intro state c next stepped
  rw [Numeral.next?] at stepped
  split at stepped
  · rename_i goesOn
    cases stepped
    simp [step, goesOn]
  · cases stepped

/-- A string that was written is put where it stands. -/
theorem readValue_writeString
    (frames : List Frame)
    (text : String) :
    readValue frames (writeString text) = put frames (.string text) := by
  have opened : beginValue frames '"' = ⟨frames, .inString .start⟩ :=
    rfl
  have closed :
      step ⟨frames, .inString (.clean text.toList.reverse)⟩ (.char '"') =
        put frames (.string text) := by
    simp [step, Spelling.step_quote, Spelling.draft_clean]
  rw [writeString, List.cons_append, readValue, opened, readChars_append,
    readChars_inString (Spelling.spell?_text text), readChars_cons, closed]
  rfl

/-- A name that was written leaves the reader before its value. -/
theorem readChars_writeName
    (done : List (Key × Draft))
    (frames : List Frame)
    (name : String) :
    readChars ⟨.members done :: frames, .inKey .start⟩
        (name.toList.flatMap writeChar ++ ['"', ':']) =
      ⟨.member done (.name name) :: frames, .value⟩ := by
  have closed :
      step ⟨.members done :: frames, .inKey (.clean name.toList.reverse)⟩ (.char '"') =
        ⟨.members done :: frames, .colon (.name name)⟩ := by
    simp [step, Spelling.step_quote, Spelling.key_clean, putKey]
  rw [readChars_append, readChars_inKey (Spelling.spell?_text name), readChars_cons, closed]
  rfl

/-- A character that starts a numeral starts no other value and is no space. -/
theorem beginValue_of_start?
    {c : Char}
    {numeral : Numeral}
    (started : Numeral.start? c = some numeral)
    (frames : List Frame) :
    beginValue frames c = ⟨frames, .inNumber numeral⟩ ∧ isSpace c = false ∧ c ≠ ']' := by
  have numeric : c = '-' ∨ ('0' ≤ c ∧ c ≤ '9') := by
    by_cases sign : c = '-'
    · exact .inl sign
    · by_cases digit : '0' ≤ c ∧ c ≤ '9'
      · exact .inr digit
      · simp [Numeral.start?, sign, digit?, digit] at started
  -- No character of a numeral is one of those that the reader asks for first.
  have other : ∀ d ∈ ['n', 't', 'f', '"', '[', '\x7b', ' ', '\n', '\t', '\r', ']'], c ≠ d := by
    rintro d member rfl
    revert member numeric
    simp only [List.mem_cons, List.not_mem_nil, or_false]
    rintro numeric (rfl | rfl | rfl | rfl | rfl | rfl | rfl | rfl | rfl | rfl | rfl) <;>
      exact absurd numeric (by decide)
  simp only [List.forall_mem_cons] at other
  simp [beginValue, isSpace, other, started]

/--
A reader that has a value: it is put in its place, or it is a numeral that the
next character ends.
-/
inductive Holds (frames : List Frame) (draft : Draft) : Reader → Prop where
  | put :
      Holds frames draft (put frames draft)
  | number {negative : Bool} {digits : List Nat} :
      (Numeral.ofDigits negative digits).draft = draft →
      Holds frames draft ⟨frames, .inNumber (.ofDigits negative digits)⟩

/-- Between tokens, a value that was put is followed by a token. -/
theorem step_put
    (frames : List Frame)
    (draft : Draft)
    (c : Char) :
    (Reader.put frames draft).step (.char c) = (Reader.put frames draft).between (.char c) := by
  cases frames with
  | nil =>
      rfl
  | cons frame frames =>
      cases frame <;> rfl

/-- A value that a reader has is in its place before a comma or a bracket. -/
theorem Holds.readChars_eq
    {frames : List Frame}
    {draft : Draft}
    {reader : Reader}
    (holds : Holds frames draft reader)
    {c : Char}
    (delimiter : c ∈ [',', ']', '\x7d'])
    (rest : List Char) :
    reader.readChars (c :: rest) = (Reader.put frames draft).readChars (c :: rest) := by
  cases holds with
  | put =>
      rfl
  | @number negative digits value =>
      have ended : (Numeral.ofDigits negative digits).step c = .ended := by
        simp only [List.mem_cons, List.not_mem_nil, or_false] at delimiter
        rcases delimiter with rfl | rfl | rfl <;>
          by_cases zero : digits = [0] <;>
          simp [Numeral.step, Numeral.ofDigits, zero, digit?, Numeral.pointOrEnd,
            Numeral.markOrEnd]
      rw [readChars_cons, readChars_cons, step_put, ← value]
      simp only [step, ended]

/-- A value that a reader has is in its place at the end of the text. -/
theorem Holds.settle_eq
    {frames : List Frame}
    {draft : Draft}
    {reader : Reader}
    (holds : Holds frames draft reader) :
    reader.settle = Reader.put frames draft := by
  cases holds with
  | put =>
      cases frames with
      | nil =>
          rfl
      | cons frame frames =>
          cases frame <;> rfl
  | @number negative digits value =>
      have complete : (Numeral.ofDigits negative digits).complete = true := by
        by_cases zero : digits = [0] <;>
          simp [Numeral.complete, Numeral.ofDigits, zero]
      simp [settle, complete, value]

/-- The reader holds an integer that was written. -/
theorem holds_writeInteger
    (frames : List Frame)
    (integer : Integer) :
    Holds frames (.number (.integer integer)) (readValue frames (writeInteger integer.value)) := by
  obtain ⟨negative, digits, spelt, value⟩ := Numeral.ofChars?_writeInteger integer
  cases written : writeInteger integer.value with
  | nil =>
      rw [written] at spelt
      cases spelt
  | cons c rest =>
      rw [written, Numeral.ofChars?] at spelt
      obtain ⟨numeral, started, spelt⟩ := Option.bind_eq_some_iff.mp spelt
      rw [readValue, (beginValue_of_start? started frames).1, readChars_inNumber spelt]
      exact .number value

/-- A document starts with a character that is no space and closes nothing. -/
theorem write_eq_cons
    {document : Json}
    (whole : document.wholeNumbers = true) :
    ∃ c rest, document.write = c :: rest ∧ isSpace c = false ∧ c ≠ ']' := by
  cases document with
  | null =>
      exact ⟨'n', ['u', 'l', 'l'], by rw [write], by decide, by decide⟩
  | bool value =>
      cases value with
      | false =>
          exact ⟨'f', ['a', 'l', 's', 'e'], by rw [write], by decide, by decide⟩
      | true =>
          exact ⟨'t', ['r', 'u', 'e'], by rw [write], by decide, by decide⟩
  | number value =>
      cases value with
      | integer integer =>
          obtain ⟨negative, digits, spelt, -⟩ := Numeral.ofChars?_writeInteger integer
          rw [write, writeNumber]
          cases written : writeInteger integer.value with
          | nil =>
              rw [written] at spelt
              cases spelt
          | cons c rest =>
              rw [written, Numeral.ofChars?] at spelt
              obtain ⟨numeral, started, -⟩ := Option.bind_eq_some_iff.mp spelt
              exact ⟨c, rest, rfl, (beginValue_of_start? started []).2⟩
      | double value =>
          rw [wholeNumbers] at whole
          cases whole
  | string value =>
      exact ⟨'"', _, by rw [write, writeString, List.cons_append], by decide, by decide⟩
  | array items =>
      exact ⟨'[', _, by rw [write], by decide, by decide⟩
  | object members =>
      exact ⟨'\x7b', _, by rw [write], by decide, by decide⟩

/-- Where a value is due, the characters of a document are read as a value. -/
theorem readChars_write
    {document : Json}
    (whole : document.wholeNumbers = true)
    {mode : Mode}
    (due : mode = .value ∨ mode = .firstItem ∨ mode = .nextItem)
    (frames : List Frame)
    (rest : List Char) :
    readChars ⟨frames, mode⟩ (document.write ++ rest) =
      (readValue frames document.write).readChars rest := by
  obtain ⟨c, more, written, noSpace, noBracket⟩ := write_eq_cons whole
  have begun : step ⟨frames, mode⟩ (.char c) = beginValue frames c := by
    rcases due with rfl | rfl | rfl <;>
      simp [step, between, token, noSpace, noBracket]
  rw [written, List.cons_append, readChars_cons, begun, readChars_append, readValue]

/-- Behind an item comes a comma or a closing bracket. -/
theorem writeMoreItems_eq_cons (items : List Json) :
    ∃ c rest, writeMoreItems items = c :: rest ∧ c ∈ [',', ']', '\x7d'] := by
  cases items with
  | nil =>
      exact ⟨']', [], by rw [writeMoreItems], by decide⟩
  | cons item items =>
      exact ⟨',', _, by rw [writeMoreItems, List.cons_append], by decide⟩

/-- Behind a member comes a comma or a closing brace. -/
theorem writeMoreMembers_eq_cons (members : List (String × Json)) :
    ∃ c rest, writeMoreMembers members = c :: rest ∧ c ∈ [',', ']', '\x7d'] := by
  cases members with
  | nil =>
      exact ⟨'\x7d', [], by rw [writeMoreMembers], by decide⟩
  | cons member members =>
      obtain ⟨name, value⟩ := member
      exact ⟨',', _, by rw [writeMoreMembers, List.cons_append, List.cons_append], by decide⟩

/-- Where a name is due, a written member is read up to what follows it. -/
theorem readChars_writeMember
    {value : Json}
    (whole : value.wholeNumbers = true)
    (held : ∀ frames, Holds frames (.ofJson value) (readValue frames value.write))
    {mode : Mode}
    (due : mode = .firstKey ∨ mode = .nextKey)
    (name : String)
    (rest : List (String × Json))
    (done : List (Key × Draft))
    (frames : List Frame) :
    readChars ⟨.members done :: frames, mode⟩
        (writeString name ++ ':' :: value.write ++ writeMoreMembers rest) =
      readChars ⟨.members ((.name name, .ofJson value) :: done) :: frames, .separator⟩
        (writeMoreMembers rest) := by
  have shape :
      writeString name ++ ':' :: value.write ++ writeMoreMembers rest =
        '"' :: ((name.toList.flatMap writeChar ++ ['"', ':']) ++
          (value.write ++ writeMoreMembers rest)) := by
    simp [writeString]
  have begun :
      step ⟨.members done :: frames, mode⟩ (.char '"') =
        ⟨.members done :: frames, .inKey .start⟩ := by
    rcases due with rfl | rfl <;> rfl
  obtain ⟨c, more, follows, delimiter⟩ := writeMoreMembers_eq_cons rest
  rw [shape, readChars_cons, begun, readChars_append, readChars_writeName,
    readChars_write whole (.inl rfl), follows, (held _).readChars_eq delimiter]
  rfl

-- The induction is on the document: what is read of a value leaves the frames below it alone.
mutual

/-- The reader holds a document that was written. -/
theorem holds_write
    (document : Json)
    (whole : document.wholeNumbers = true)
    (frames : List Frame) :
    Holds frames (.ofJson document) (readValue frames document.write) := by
  cases document with
  | null =>
      rw [write, Draft.ofJson]
      exact .put
  | bool value =>
      cases value <;>
        rw [write, Draft.ofJson] <;>
        exact .put
  | number value =>
      cases value with
      | integer integer =>
          rw [write, writeNumber, Draft.ofJson]
          exact holds_writeInteger frames integer
      | double value =>
          rw [wholeNumbers] at whole
          cases whole
  | string value =>
      rw [write, Draft.ofJson, readValue_writeString]
      exact .put
  | array items =>
      rw [wholeNumbers] at whole
      have closed := readChars_writeItems items whole frames
      rw [write, Draft.ofJson, readValue]
      rw [show beginValue frames '[' = ⟨.items [] :: frames, .firstItem⟩ from rfl, closed]
      exact .put
  | object members =>
      rw [wholeNumbers] at whole
      have closed := readChars_writeMembers members whole frames
      rw [write, Draft.ofJson, readValue]
      rw [show beginValue frames '\x7b' = ⟨.members [] :: frames, .firstKey⟩ from rfl, closed]
      exact .put

/-- The items of an array are read up to its end. -/
theorem readChars_writeItems
    (items : List Json)
    (whole : wholeNumbersItems items = true)
    (frames : List Frame) :
    readChars ⟨.items [] :: frames, .firstItem⟩ (writeItems items) =
      Reader.put frames (.array (Draft.ofItems items) none) := by
  cases items with
  | nil =>
      rw [writeItems, Draft.ofItems]
      rfl
  | cons item rest =>
      rw [wholeNumbersItems, Bool.and_eq_true] at whole
      have held := holds_write item whole.1 (.items [] :: frames)
      -- A number is still being read here; the comma or bracket behind it ends it.
      obtain ⟨c, more, shape, delimiter⟩ := writeMoreItems_eq_cons rest
      have closed := readChars_writeMoreItems rest whole.2 [.ofJson item] frames
      rw [writeItems, readChars_write whole.1 (.inr (.inl rfl)), Draft.ofItems]
      rw [shape] at closed ⊢
      rw [held.readChars_eq delimiter]
      exact closed

/-- The items after the first one are read up to the end of the array. -/
theorem readChars_writeMoreItems
    (items : List Json)
    (whole : wholeNumbersItems items = true)
    (done : List Draft)
    (frames : List Frame) :
    readChars ⟨.items done :: frames, .separator⟩ (writeMoreItems items) =
      Reader.put frames (.array (done.reverse ++ Draft.ofItems items) none) := by
  cases items with
  | nil =>
      rw [writeMoreItems, Draft.ofItems, List.append_nil]
      rfl
  | cons item rest =>
      rw [wholeNumbersItems, Bool.and_eq_true] at whole
      have held := holds_write item whole.1 (.items done :: frames)
      obtain ⟨c, more, shape, delimiter⟩ := writeMoreItems_eq_cons rest
      have closed := readChars_writeMoreItems rest whole.2 (.ofJson item :: done) frames
      have comma :
          step ⟨.items done :: frames, .separator⟩ (.char ',') =
            ⟨.items done :: frames, .nextItem⟩ :=
        rfl
      rw [writeMoreItems, List.cons_append, readChars_cons, comma,
        readChars_write whole.1 (.inr (.inr rfl)), Draft.ofItems]
      rw [shape] at closed ⊢
      rw [List.reverse_cons, List.append_assoc] at closed
      rw [held.readChars_eq delimiter]
      exact closed

/-- The members of an object are read up to its end. -/
theorem readChars_writeMembers
    (members : List (String × Json))
    (whole : wholeNumbersMembers members = true)
    (frames : List Frame) :
    readChars ⟨.members [] :: frames, .firstKey⟩ (writeMembers members) =
      Reader.put frames (.object (Draft.ofMembers members) none) := by
  cases members with
  | nil =>
      rw [writeMembers, Draft.ofMembers]
      rfl
  | cons member rest =>
      obtain ⟨name, value⟩ := member
      rw [wholeNumbersMembers, Bool.and_eq_true] at whole
      have held := holds_write value whole.1
      have closed :=
        readChars_writeMoreMembers rest whole.2 [(.name name, .ofJson value)] frames
      rw [writeMembers, readChars_writeMember whole.1 held (.inl rfl), closed,
        Draft.ofMembers]
      rfl

/-- The members after the first one are read up to the end of the object. -/
theorem readChars_writeMoreMembers
    (members : List (String × Json))
    (whole : wholeNumbersMembers members = true)
    (done : List (Key × Draft))
    (frames : List Frame) :
    readChars ⟨.members done :: frames, .separator⟩ (writeMoreMembers members) =
      Reader.put frames (.object (done.reverse ++ Draft.ofMembers members) none) := by
  cases members with
  | nil =>
      rw [writeMoreMembers, Draft.ofMembers, List.append_nil]
      rfl
  | cons member rest =>
      obtain ⟨name, value⟩ := member
      rw [wholeNumbersMembers, Bool.and_eq_true] at whole
      have held := holds_write value whole.1
      have closed :=
        readChars_writeMoreMembers rest whole.2 ((.name name, .ofJson value) :: done) frames
      have comma :
          step ⟨.members done :: frames, .separator⟩ (.char ',') =
            ⟨.members done :: frames, .nextKey⟩ :=
        rfl
      have shape :
          writeMoreMembers ((name, value) :: rest) =
            ',' :: (writeString name ++ ':' :: value.write ++ writeMoreMembers rest) := by
        rw [writeMoreMembers, List.cons_append, List.cons_append]
      rw [shape, readChars_cons, comma, readChars_writeMember whole.1 held (.inr rfl),
        closed, Draft.ofMembers, List.reverse_cons, List.append_assoc]
      rfl

end

end Reader

/-- Glyphs that are the characters of a document are read back. -/
theorem readGlyphs_write
    {document : Json}
    (whole : document.wholeNumbers = true) :
    readGlyphs (document.write.map Text.Glyph.char) = ⟨.ofJson document, false⟩ := by
  have held := Reader.holds_write document whole []
  have due := Reader.readChars_write whole (.inl rfl) [] []
  rw [List.append_nil] at due
  have read :
      (document.write.map Text.Glyph.char).foldl Reader.step Reader.start =
        Reader.readValue [] document.write := by
    rw [List.foldl_map]
    exact due
  rw [readGlyphs, read, Reader.sheet, held.settle_eq]
  rfl

/-- A document without doubles is read back from its text, and nothing comes behind it. -/
theorem readText_text
    {document : Json}
    (whole : document.wholeNumbers = true) :
    readText document.text = ⟨.ofJson document, false⟩ := by
  rw [readText, Text.glyphsOf, text, String.toList_ofList, readGlyphs_write whole]

end AgentWire.Json

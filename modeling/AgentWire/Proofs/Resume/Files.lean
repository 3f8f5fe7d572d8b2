import AgentWire.Proofs.Event
import AgentWire.Proofs.Json.Writer
import AgentWire.Proofs.Resume.Progress
import AgentWire.Proofs.Text.Lines
import AgentWire.Resume.Files

namespace AgentWire

/-!
# Files with progress are read back

The lines of a file are the documents that were written to it, one by one.  Reading
the file notes the events of its lines, from the progress in its header on.
-/

namespace Event

/-- An event that a line of a file can hold; the line is one level deeper than the event. -/
structure Storable (event : Event) : Prop where
  decoded : ∃ text, Event.ofText text = .ok event
  whole : event.encode.wholeNumbers = true
  shallow : event.encode.depth ≤ 126

end Event

namespace Resume

open Json (Decoder Draft Parts Reading Schema)

section Documents

variable
  {event : Event}
  {lastNumber : UInt64}

/-- No header holds a double. -/
theorem wholeNumbers_headerOf (progress : Progress) :
    (headerOf progress).wholeNumbers = true := by
  obtain ⟨responseId, lastNumber, lastMessageId, events⟩ := progress
  cases responseId <;> cases lastMessageId <;> rfl

/-- The header of progress is read as the progress without its events. -/
theorem decodeHeader_text (progress : Progress) :
    decodeHeader.text (headerOf progress).text = .ok { progress with events := [] } := by
  let members :=
    [("responseId", Json.orNull progress.responseId .string),
     ("lastSequenceNumber", .word progress.lastNumber),
     ("lastMessageId", Json.orNull progress.lastMessageId .string)]
  have word := (Decoder.recovers_word (some progress.lastNumber) (.text 126) _ rfl).2
  have responseId := Decoder.recovers_string progress.responseId (.text 126)
  have lastMessageId := Decoder.recovers_string progress.lastMessageId (.text 126)
  have fits : ∀ member ∈ members, headerSchema.Fits (.text 126) member := by
    refine List.forall_mem_cons.mpr ⟨⟨_, rfl, ?_⟩, List.forall_mem_cons.mpr ⟨⟨_, rfl, ?_⟩,
      List.forall_mem_singleton.mpr ⟨_, rfl, ?_⟩⟩⟩
    · exact Decoder.check_of_ok responseId.optional_orNull
    · exact Decoder.check_of_ok word
    · exact Decoder.check_of_ok lastMessageId.optional_orNull
  have parts : headerSchema.parts .wholeText (.object (Draft.ofMembers members) none) =
      .ok ⟨.text 126, Json.noted members⟩ :=
    Schema.parts_ofMembers rfl (by simp [members]) fits
  have first := Parts.optional_orNull (show members.lookup "responseId" = _ from rfl) responseId
  have second := Parts.required_noted
    (show members.lookup "lastSequenceNumber" = _ from rfl) word
  have third := Parts.optional_orNull
    (show members.lookup "lastMessageId" = _ from rfl) lastMessageId
  rw [Decoder.text_text decodeHeader (wholeNumbers_headerOf progress), headerOf, Draft.ofJson,
    decodeHeader, parts]
  simp only [first, second, third, bind, Except.bind]

/-- The entry of an event that can be stored holds no double. -/
theorem wholeNumbers_entryOf (storable : event.Storable) :
    (entryOf event lastNumber).wholeNumbers = true := by
  have whole := storable.whole
  simp [entryOf, Json.wholeNumbers, Json.wholeNumbersMembers, Json.word, whole]

/-- The line of an event is read as the event and its number. -/
theorem decodeEntry_text (storable : event.Storable) :
    decodeEntry.text (entryOf event lastNumber).text = .ok (event, lastNumber) := by
  obtain ⟨source, decoded⟩ := storable.decoded
  have word := (Decoder.recovers_word (some lastNumber) (.text 126) _ rfl).2
  have body : Event.decode (.text 126) (.ofJson event.encode) = .ok event :=
    Event.decode_encode (Event.canonical_of_ofText decoded) storable.shallow
  let members := [("lastSequenceNumber", .word lastNumber), ("event", event.encode)]
  have fits : ∀ member ∈ members, entrySchema.Fits (.text 126) member := by
    refine List.forall_mem_cons.mpr ⟨⟨_, rfl, ?_⟩, List.forall_mem_singleton.mpr ⟨_, rfl, ?_⟩⟩
    · exact Decoder.check_of_ok word
    · exact Decoder.check_of_ok body
  have parts : entrySchema.parts .wholeText (.object (Draft.ofMembers members) none) =
      .ok ⟨.text 126, Json.noted members⟩ :=
    Schema.parts_ofMembers rfl (by simp [members]) fits
  have first := Parts.required_noted
    (show members.lookup "lastSequenceNumber" = _ from rfl) word
  have second := Parts.required_noted (show members.lookup "event" = _ from rfl) body
  rw [Decoder.text_text decodeEntry (wholeNumbers_entryOf storable), entryOf, Draft.ofJson,
    decodeEntry, parts]
  simp only [first, second, bind, Except.bind]

end Documents

section Contents

theorem lineOf_eq (document : Json) :
    lineOf document = Text.Utf8.encode (String.ofList (document.write ++ ['\n'])) := by
  have newline : Text.Utf8.encode (String.ofList ['\n']) = [Text.newlineByte] := by
    rw [Text.Utf8.encode_eq]
    rfl
  rw [String.ofList_append, Text.Utf8.encode_append, newline]
  rfl

/-- The lines of documents are written one behind the other. -/
theorem flatMap_lineOf (documents : List Json) :
    documents.flatMap lineOf =
      Text.Utf8.encode (String.ofList (documents.flatMap (·.write ++ ['\n']))) := by
  induction documents with
  | nil => simp [Text.Utf8.encode_eq]
  | cons document rest inductionHypothesis =>
      rw [List.flatMap_cons, List.flatMap_cons, String.ofList_append, Text.Utf8.encode_append,
        lineOf_eq, inductionHypothesis]

section Lines

variable
  {documents : List Json}
  (whole : ∀ document ∈ documents, document.wholeNumbers = true)

include whole

/-- No document is written over more than one line. -/
theorem plain_documents :
    ∀ line ∈ documents.map Json.write, '\n' ∉ line ∧ '\r' ∉ line := by
  intro line member
  obtain ⟨document, inside, rfl⟩ := List.mem_map.mp member
  have written := Json.plain_write document (whole document inside)
  exact ⟨written.not_newline, written.not_return⟩

/-- The lines of documents that were written one by one are their texts. -/
theorem lines_documents :
    (Text.Utf8.decode? (documents.flatMap lineOf)).map Text.lines =
      some (documents.map Json.text) := by
  have cut := Text.linesOf_closed (plain_documents whole)
  rw [List.flatMap_map] at cut
  rw [flatMap_lineOf, Text.Utf8.decode?_encode, Option.map_some, Text.lines,
    String.toList_ofList, cut, List.map_map]
  rfl

/-- Any line between such lines is read as it is. -/
theorem lines_documents_between
    {later : List Json}
    (wholeLater : ∀ document ∈ later, document.wholeNumbers = true)
    {line : List Char}
    (plain : '\n' ∉ line ∧ '\r' ∉ line) :
    (Text.Utf8.decode?
        (documents.flatMap lineOf
          ++ (Text.Utf8.encode (String.ofList (line ++ ['\n'])) ++ later.flatMap lineOf))).map
        Text.lines =
      some (documents.map Json.text ++ String.ofList line :: later.map Json.text) := by
  have cut := Text.linesOf_closed <| List.forall_mem_append.mpr
    ⟨plain_documents whole, List.forall_mem_cons.mpr ⟨plain, plain_documents wholeLater⟩⟩
  rw [List.flatMap_append, List.flatMap_cons, List.flatMap_map, List.flatMap_map] at cut
  rw [flatMap_lineOf, flatMap_lineOf, ← Text.Utf8.encode_append, ← Text.Utf8.encode_append,
    ← String.ofList_append, ← String.ofList_append, Text.Utf8.decode?_encode, Option.map_some,
    Text.lines, String.toList_ofList, cut, List.map_append, List.map_cons, List.map_map,
    List.map_map]
  rfl

/-- A piece of a line behind such lines is one more line. -/
theorem lines_documents_open
    {piece : List Char}
    (single : '\n' ∉ piece)
    (nonempty : piece ≠ []) :
    (Text.Utf8.decode?
        (documents.flatMap lineOf ++ Text.Utf8.encode (String.ofList piece))).map Text.lines =
      some (documents.map Json.text ++ [String.ofList piece]) := by
  have cut := Text.linesOf_open (plain_documents whole) single nonempty
  rw [List.flatMap_map] at cut
  rw [flatMap_lineOf, ← Text.Utf8.encode_append, ← String.ofList_append,
    Text.Utf8.decode?_encode, Option.map_some, Text.lines, String.toList_ofList, cut,
    List.map_append, List.map_map]
  rfl

end Lines

/-- The content of a file with the header of some progress and with these entries. -/
def contentOf
    (header : Progress)
    (entries : List (Event × UInt64)) :
    Text.Bytes :=
  (headerOf header :: entries.map fun entry => entryOf entry.1 entry.2).flatMap lineOf

variable
  {header progress : Progress}
  {entries : List (Event × UInt64)}

/-- The lines of some entries. -/
def entryLines (entries : List (Event × UInt64)) : Text.Bytes :=
  (entries.map fun entry => entryOf entry.1 entry.2).flatMap lineOf

theorem entryLines_singleton
    (event : Event)
    (lastNumber : UInt64) :
    entryLines [(event, lastNumber)] = lineOf (entryOf event lastNumber) := by
  simp [entryLines]

/-- Lines of entries behind a file make a file with these entries behind its own. -/
theorem contentOf_append_entryLines
    (header : Progress)
    (entries more : List (Event × UInt64)) :
    contentOf header entries ++ entryLines more = contentOf header (entries ++ more) := by
  simp [contentOf, entryLines]

theorem contentOf_append
    (header : Progress)
    (entries : List (Event × UInt64))
    (event : Event)
    (lastNumber : UInt64) :
    contentOf header entries ++ lineOf (entryOf event lastNumber) =
      contentOf header (entries ++ [(event, lastNumber)]) := by
  simp [contentOf]

theorem fileOf_eq (progress : Progress) :
    fileOf progress = contentOf progress (progress.events.map (·, progress.lastNumber)) := by
  simp [fileOf, contentOf, List.flatMap_map]

/-- No entry is written as a blank line. -/
theorem isBlankText_entryOf
    (event : Event)
    (lastNumber : UInt64) :
    Text.isBlankText (entryOf event lastNumber).text = false := by
  have opening : Text.isBlank '\x7b' = false := by decide
  rw [Text.isBlankText, Json.text, String.toList_ofList, entryOf, Json.write, List.all_cons,
    opening, Bool.false_and]

/-- The lines of entries are noted, and then what stands behind them. -/
theorem recordLines_entries
    (progress : Progress)
    (storable : ∀ entry ∈ entries, entry.1.Storable)
    (rest : List String) :
    recordLines progress ((entries.map fun entry => (entryOf entry.1 entry.2).text) ++ rest) =
      recordLines (progress.recordAll entries) rest := by
  induction entries generalizing progress with
  | nil => rfl
  | cons entry others inductionHypothesis =>
      obtain ⟨event, lastNumber⟩ := entry
      have read : decodeEntry.text (entryOf event lastNumber).text = .ok (event, lastNumber) :=
        decodeEntry_text (storable (event, lastNumber) List.mem_cons_self)
      simp only [List.map_cons, List.cons_append, recordLines, isBlankText_entryOf, read]
      exact inductionHypothesis _ fun entry member => storable entry (List.mem_cons_of_mem _ member)

section Storable

variable (storable : ∀ entry ∈ entries, entry.1.Storable)

include storable

theorem wholeNumbers_entries :
    ∀ document ∈ entries.map fun entry => entryOf entry.1 entry.2,
      document.wholeNumbers = true := by
  intro document member
  obtain ⟨entry, inside, rfl⟩ := List.mem_map.mp member
  exact wholeNumbers_entryOf (storable entry inside)

/-- No line of a file holds a double if its events can be stored. -/
theorem wholeNumbers_contentOf :
    ∀ document ∈ headerOf header :: entries.map fun entry => entryOf entry.1 entry.2,
      document.wholeNumbers = true :=
  List.forall_mem_cons.mpr ⟨wholeNumbers_headerOf header, wholeNumbers_entries storable⟩

/-- What a file holds is the progress of its header with its entries noted. -/
theorem ofFile?_contentOf :
    ofFile? (contentOf header entries) = some ({ header with events := [] }.recordAll entries) := by
  have noted := recordLines_entries { header with events := [] } storable []
  rw [List.append_nil] at noted
  rw [ofFile?, contentOf, lines_documents (wholeNumbers_contentOf storable), List.map_cons,
    List.map_map]
  simp only [decodeHeader_text]
  exact congrArg some noted

/-- A piece of a line behind the entries is looked at after them. -/
theorem ofFile?_contentOf_open
    {piece : List Char}
    (single : '\n' ∉ piece) :
    ofFile? (contentOf header entries ++ Text.Utf8.encode (String.ofList piece)) =
      some (recordLines ({ header with events := [] }.recordAll entries)
        [String.ofList piece]) := by
  cases piece with
  | nil =>
      rw [Text.Utf8.encode_ofList_eq_nil.mpr rfl, List.append_nil, ofFile?_contentOf storable]
      rfl
  | cons first rest =>
      have noted := recordLines_entries { header with events := [] } storable
        [String.ofList (first :: rest)]
      rw [ofFile?, contentOf, lines_documents_open (wholeNumbers_contentOf storable) single
        (List.cons_ne_nil first rest), List.map_cons, List.map_map, List.cons_append]
      simp only [decodeHeader_text]
      exact congrArg some noted

end Storable

/-- The entries that progress is saved with can be stored if its events can. -/
theorem storable_own (storable : ∀ event ∈ progress.events, event.Storable) :
    ∀ entry ∈ progress.events.map (·, progress.lastNumber), entry.1.Storable := by
  intro entry member
  obtain ⟨event, inside, rfl⟩ := List.mem_map.mp member
  exact storable event inside

/-- Progress that is consistent is read back from its own file. -/
theorem ofFile?_fileOf
    (consistent : progress.Consistent)
    (storable : ∀ event ∈ progress.events, event.Storable) :
    ofFile? (fileOf progress) = some progress := by
  rw [fileOf_eq, ofFile?_contentOf (storable_own storable), consistent.recordAll_own]

end Contents

end Resume

end AgentWire

import AgentWire.Proofs.Json.EarlyEnd
import AgentWire.Proofs.Resume.Store

namespace AgentWire

/-!
# A torn last line

A file may lose its end when the line of an event is written.  Unless the cut goes
through a character, the file is read as the progress before that event, or with it
if only the newline is missing.  A cut through a character spoils the whole file.
-/

namespace Event

open Json (Reading)

/-- An event is decoded from what was met to its end. -/
theorem whole_of_decode
    {route : Json.Route}
    {draft : Json.Draft}
    {event : Event}
    (decoded : decode route draft = .ok event) :
    draft.Whole := by
  rw [decode, Json.bind_eq_ok] at decoded
  obtain ⟨parts, tagged, -⟩ := decoded
  exact Json.Decoder.whole_of_tagged tagged

end Event

namespace Resume

open Client (ClientError)
open Json (Decoder Reading)

section Lines

/-- A line is read as an entry only where it does not break off. -/
theorem thorough_entrySchema : entrySchema.Thorough := by
  refine List.forall_mem_cons.mpr ⟨?number, List.forall_mem_singleton.mpr ?event⟩
  all_goals
    intro route draft checked
    obtain ⟨value, decoded, -⟩ := Json.bind_eq_ok.mp checked
  case number => exact Decoder.whole_of_word decoded
  case event => exact Event.whole_of_decode decoded

variable
  {event : Event}
  {lastNumber : UInt64}

/-- The beginning of the line of an event is not read as an event. -/
theorem decodeEntry_of_prefix
    (storable : event.Storable)
    {start : List Char}
    (early : start <+: (entryOf event lastNumber).write)
    (short : start ≠ (entryOf event lastNumber).write) :
    ∃ refusal, decodeEntry.text (String.ofList start) = .error refusal := by
  cases read : decodeEntry.text (String.ofList start) with
  | error refusal => exact ⟨refusal, rfl⟩
  | ok entry =>
      rw [Decoder.text, Decoder.sheet, Json.bind_eq_ok] at read
      obtain ⟨entry, decoded, -⟩ := read
      rw [decodeEntry, Json.bind_eq_ok] at decoded
      obtain ⟨parts, found, -⟩ := decoded
      have breaks := Json.not_whole_of_prefix (wholeNumbers_entryOf storable) early short
      exact absurd (Json.Schema.whole_of_parts thorough_entrySchema found) breaks

/-- The beginning of the line of an event adds nothing, and the whole line adds the event. -/
theorem recordLines_prefix
    (progress : Progress)
    (storable : event.Storable)
    {start : List Char}
    (early : start <+: (entryOf event lastNumber).write) :
    recordLines progress [String.ofList start] =
      if start = (entryOf event lastNumber).write then
        progress.recordAt event lastNumber
      else
        progress := by
  split
  · next same =>
    have read : decodeEntry.text (entryOf event lastNumber).text = .ok (event, lastNumber) :=
      decodeEntry_text storable
    rw [same, ← Json.text, recordLines, isBlankText_entryOf, read]
    rfl
  · next short =>
    obtain ⟨refusal, refused⟩ := decodeEntry_of_prefix storable early short
    rw [recordLines, refused]
    split <;> rfl

end Lines

section Contents

variable
  {event : Event}
  {lastNumber : UInt64}
  {header : Progress}
  {entries : List (Event × UInt64)}
  {kept : Nat}

/-- Whether the first bytes of the line of an event end where one of its characters does. -/
def cutsBetween (event : Event) (lastNumber : UInt64) (kept : Nat) : Bool :=
  Text.Utf8.endsCharacter ((entryOf event lastNumber).write ++ ['\n']) kept

/-- A file that is cut within a character of its last line gives nothing. -/
theorem ofFile?_spoilt
    (inside : kept ≤ (lineOf (entryOf event lastNumber)).length)
    (cut : cutsBetween event lastNumber kept = false) :
    ofFile? (contentOf header entries ++ (lineOf (entryOf event lastNumber)).take kept) = none := by
  rw [lineOf_eq] at inside
  rw [cutsBetween, ← String.toList_ofList (l := _ ++ _)] at cut
  rw [ofFile?, contentOf, flatMap_lineOf, lineOf_eq,
    Text.Utf8.decode?_take_eq_none inside cut, Option.map_none]

theorem length_lineOf (document : Json) :
    (lineOf document).length = (Text.Utf8.encode (String.ofList document.write)).length + 1 := by
  rw [lineOf, List.length_append]
  rfl

/-- Only a piece that is not the whole of a text leaves bytes of it out. -/
theorem short_iff
    {text start : List Char}
    (early : start <+: text) :
    (Text.Utf8.encode (String.ofList start)).length < (Text.Utf8.encode (String.ofList text)).length
      ↔ start ≠ text := by
  obtain ⟨rest, rfl⟩ := early
  rw [String.ofList_append, Text.Utf8.encode_append, List.length_append, Nat.lt_add_right_iff_pos,
    List.length_pos_iff, ne_eq, Text.Utf8.encode_ofList_eq_nil]
  simp

/-- A file whose last line is cut off between two characters is read up to that line. -/
theorem ofFile?_torn
    (storable : ∀ entry ∈ entries, entry.1.Storable)
    (last : event.Storable)
    (inside : kept ≤ (lineOf (entryOf event lastNumber)).length)
    (between : cutsBetween event lastNumber kept = true) :
    ofFile? (contentOf header entries ++ (lineOf (entryOf event lastNumber)).take kept) =
      some (
        if kept + 1 < (lineOf (entryOf event lastNumber)).length then
          { header with events := [] }.recordAll entries
        else
          ({ header with events := [] }.recordAll entries).recordAt event lastNumber) := by
  have length := length_lineOf (entryOf event lastNumber)
  rw [cutsBetween, ← String.toList_ofList (l := _ ++ _)] at between
  obtain ⟨start, early, taken⟩ := Text.Utf8.exists_take_eq between
  rw [← lineOf_eq] at taken
  have size : (Text.Utf8.encode (String.ofList start)).length = kept := by
    rw [← taken, List.length_take, Nat.min_eq_left inside]
  rw [String.toList_ofList] at early
  rcases List.prefix_concat_iff.mp early with rfl | early
  · rw [← lineOf_eq] at size
    have all : ∀ entry ∈ entries ++ [(event, lastNumber)], entry.1.Storable :=
      List.forall_mem_append.mpr ⟨storable, List.forall_mem_singleton.mpr last⟩
    rw [List.take_of_length_le (by omega), contentOf_append, ofFile?_contentOf all,
      Progress.recordAll_concat, if_neg (by omega)]
  · have whole : (entryOf event lastNumber).wholeNumbers = true := wholeNumbers_entryOf last
    have single : '\n' ∉ start :=
      fun member => (Json.plain_write _ whole).not_newline (early.subset member)
    have short : kept + 1 < (lineOf (entryOf event lastNumber)).length ↔
        start ≠ (entryOf event lastNumber).write := by
      rw [length, ← size, Nat.add_lt_add_iff_right]
      exact short_iff early
    rw [taken, ofFile?_contentOf_open storable single, recordLines_prefix _ last early]
    simp only [short, ne_eq, ite_not]

end Contents

namespace Files

/-- The file of a key has this content. -/
def Holds (files : Files) (key : String) (content : Text.Bytes) : Prop :=
  files.folder.read (nameOf key) files.longestName = .ok content

/-- Add events one after the other, each with its number. -/
def appendAll (files : Files) (key : String) :
    List (Event × UInt64) → Except ClientError Unit × Files
  | [] => (.ok (), files)
  | (event, lastNumber) :: rest =>
      match files.append key event lastNumber with
      | (.ok (), next) => next.appendAll key rest
      | (.error error, next) => (.error error, next)

/-- The file of a key loses its last bytes. -/
def lose (files : Files) (key : String) (lost : Nat) : Except FileFault Files := do
  let content ← files.folder.read (nameOf key) files.longestName
  let left := content.take (content.length - lost)
  let folder ← files.folder.write (nameOf key) left files.longestName
  .ok { files with folder }

section Holds

variable
  {place : Files}
  {key : String}
  {content : Text.Bytes}

/-- A file that was saved holds the progress. -/
theorem holds_of_save
    {saved : Files}
    {progress : Progress}
    (saves : place.save key progress = (.ok (), saved)) :
    saved.Holds key (fileOf progress) := by
  rw [save] at saves
  cases created : place.folder.create with
  | error fault => simp [created] at saves
  | ok folder =>
      simp only [created] at saves
      split at saves
      · simp at saves
      · next written wrote =>
        split at saves
        · simp at saves
        · next moved renamed =>
          simp only [Prod.mk.injEq, true_and] at saves
          subst saves
          exact Folder.read_rename (Folder.read_write wrote) renamed

namespace Holds

/-- A file that can be read is loaded and left as it is. -/
theorem load_known
    {progress : Progress}
    (holds : place.Holds key content)
    (known : ofFile? content = some progress) :
    place.load key = .ok (some progress, place) := by
  rw [load, holds]
  simp only [known]

/-- A file that cannot be read gives nothing and is removed. -/
theorem load_spoilt
    (holds : place.Holds key content)
    (spoilt : ofFile? content = none) :
    ∃ left,
      place.load key = .ok (none, left) ∧
        left.folder.read (nameOf key) left.longestName = .error .notFound := by
  obtain ⟨left, removed, gone⟩ := Folder.remove_of_read holds
  refine ⟨{ place with folder := left }, ?_, gone⟩
  rw [load, holds]
  simp only [spoilt, clear, removed, bind, Except.bind]

/-- Losing bytes of a file leaves its beginning. -/
theorem lose
    (holds : place.Holds key content)
    (lost : Nat) :
    ∃ torn,
      place.lose key lost = .ok torn ∧
        torn.Holds key (content.take (content.length - lost)) := by
  obtain ⟨written, wrote⟩ :=
    Folder.write_of_read holds (content.take (content.length - lost))
  refine ⟨{ place with folder := written }, ?_, Folder.read_write wrote⟩
  rw [Files.lose, holds]
  simp only [wrote, bind, Except.bind]

/-- An entry is appended behind whatever a file holds. -/
theorem append
    (holds : place.Holds key content)
    (event : Event)
    (lastNumber : UInt64) :
    ∃ next,
      place.append key event lastNumber = (.ok (), next) ∧
        next.Holds key (content ++ lineOf (entryOf event lastNumber)) := by
  obtain ⟨written, wrote⟩ :=
    Folder.write_of_read holds (content ++ lineOf (entryOf event lastNumber))
  refine ⟨{ place with folder := written }, ?_, Folder.read_write wrote⟩
  have appended :
      place.folder.append (nameOf key) (lineOf (entryOf event lastNumber)) place.longestName =
        .ok written := by
    rw [Folder.append, holds]
    exact wrote
  rw [Files.append, appended]

/-- Events that are appended one after the other come behind whatever a file holds. -/
theorem appendLines
    (holds : place.Holds key content)
    (more : List (Event × UInt64)) :
    ∃ next,
      place.appendAll key more = (.ok (), next) ∧
        next.Holds key (content ++ entryLines more) := by
  induction more generalizing place content with
  | nil => exact ⟨place, rfl, by rwa [entryLines, List.map_nil, List.flatMap_nil, List.append_nil]⟩
  | cons entry rest inductionHypothesis =>
      obtain ⟨event, lastNumber⟩ := entry
      obtain ⟨next, appended, held⟩ := holds.append event lastNumber
      obtain ⟨last, others, heldLast⟩ := inductionHypothesis held
      rw [List.append_assoc] at heldLast
      refine ⟨last, ?_, heldLast⟩
      rw [Files.appendAll, appended]
      exact others

/-- Entries are appended behind those that a file holds. -/
theorem appendAll
    {header : Progress}
    {entries : List (Event × UInt64)}
    (holds : place.Holds key (contentOf header entries))
    (more : List (Event × UInt64)) :
    ∃ next,
      place.appendAll key more = (.ok (), next) ∧
        next.Holds key (contentOf header (entries ++ more)) := by
  obtain ⟨next, appended, held⟩ := holds.appendLines more
  exact ⟨next, appended, by rwa [contentOf_append_entryLines] at held⟩

end Holds

end Holds

/-- Only a line that has lost no more than its newline reaches up to its newline. -/
theorem reaches_iff
    {document : Json}
    {lost : Nat}
    (inside : lost ≤ (lineOf document).length) :
    (lineOf document).length - lost + 1 < (lineOf document).length ↔ ¬lost ≤ 1 := by
  have size := length_lineOf document
  omega

/-- A torn line gives its event, or nothing if more than the newline is lost. -/
theorem Holds.load_before_tear
    {torn : Files}
    {key : String}
    {header : Progress}
    {entries : List (Event × UInt64)}
    {event : Event}
    {lastNumber : UInt64}
    {lost : Nat}
    (holds :
      torn.Holds key
        (contentOf header entries
          ++ (lineOf (entryOf event lastNumber)).take
              ((lineOf (entryOf event lastNumber)).length - lost)))
    (storable : ∀ entry ∈ entries, entry.1.Storable)
    (last : event.Storable)
    (inside : lost ≤ (lineOf (entryOf event lastNumber)).length)
    (between :
      cutsBetween event lastNumber ((lineOf (entryOf event lastNumber)).length - lost) = true) :
    torn.load key =
      .ok
        (some
          (if lost ≤ 1 then
            ({ header with events := [] }.recordAll entries).recordAt event lastNumber
          else
            { header with events := [] }.recordAll entries),
         torn) := by
  refine holds.load_known ?_
  rw [ofFile?_torn storable last (Nat.sub_le _ _) between]
  simp only [reaches_iff inside, ite_not]

/-- Progress is saved, events are appended, and the line of the last one loses its end. -/
theorem exists_torn
    {place saved : Files}
    {key : String}
    {progress : Progress}
    {event : Event}
    {lastNumber : UInt64}
    {lost : Nat}
    (saves : place.save key progress = (.ok (), saved))
    (entries : List (Event × UInt64))
    (inside : lost ≤ (lineOf (entryOf event lastNumber)).length) :
    ∃ before after torn,
      saved.appendAll key entries = (.ok (), before) ∧
        before.Holds key
          (contentOf progress (progress.events.map (·, progress.lastNumber) ++ entries)) ∧
        before.append key event lastNumber = (.ok (), after) ∧
        after.lose key lost = .ok torn ∧
        torn.Holds key
          (contentOf progress (progress.events.map (·, progress.lastNumber) ++ entries)
            ++ (lineOf (entryOf event lastNumber)).take
                ((lineOf (entryOf event lastNumber)).length - lost)) := by
  have stored := holds_of_save saves
  rw [fileOf_eq] at stored
  obtain ⟨before, appended, held⟩ := stored.appendAll entries
  obtain ⟨after, appendedLast, heldLast⟩ := held.append event lastNumber
  obtain ⟨torn, cut, left⟩ := heldLast.lose lost
  rw [List.length_append, Nat.add_sub_assoc inside, List.take_length_add_append] at left
  exact ⟨before, after, torn, appended, held, appendedLast, cut, left⟩

/--
Progress is saved, events are appended, and the line of the last one loses its end.
If the cut goes through no character, the file gives the progress before that event,
or with it if no more than the newline is lost, and stays.  Otherwise the file is
dropped, and with it all that was saved.
-/
theorem load_torn
    {place saved : Files}
    {key : String}
    {progress : Progress}
    {entries : List (Event × UInt64)}
    {event : Event}
    {lastNumber : UInt64}
    {lost : Nat}
    (saves : place.save key progress = (.ok (), saved))
    (consistent : progress.Consistent)
    (ownStorable : ∀ event ∈ progress.events, event.Storable)
    (storable : ∀ entry ∈ entries, entry.1.Storable)
    (last : event.Storable)
    (inside : lost ≤ (lineOf (entryOf event lastNumber)).length) :
    ∃ before after torn,
      saved.appendAll key entries = (.ok (), before) ∧
        before.load key = .ok (some (progress.recordAll entries), before) ∧
        before.append key event lastNumber = (.ok (), after) ∧
        after.lose key lost = .ok torn ∧
        if cutsBetween event lastNumber ((lineOf (entryOf event lastNumber)).length - lost) then
          torn.load key =
            .ok
              (some
                (if lost ≤ 1 then
                  (progress.recordAll entries).recordAt event lastNumber
                else
                  progress.recordAll entries),
               torn)
        else
          ∃ left,
            torn.load key = .ok (none, left) ∧
              left.folder.read (nameOf key) left.longestName = .error .notFound := by
  obtain ⟨before, after, torn, appended, held, appendedLast, cut, left⟩ :=
    exists_torn saves entries inside
  have all : ∀ entry ∈ progress.events.map (·, progress.lastNumber) ++ entries,
      entry.1.Storable :=
    List.forall_mem_append.mpr ⟨storable_own ownStorable, storable⟩
  have known := consistent.recordAll_own_append entries
  refine ⟨before, after, torn, appended, ?_, appendedLast, cut, ?_⟩
  · exact held.load_known (by rw [ofFile?_contentOf all, known])
  · split
    · next between =>
      rw [left.load_before_tear all last inside between, known]
    · next through =>
      rw [Bool.not_eq_true] at through
      exact left.load_spoilt (ofFile?_spoilt (Nat.sub_le _ _) through)

end Files

namespace TornUse

open MixedUse (opening)

/-- A piece of text whose last character takes two bytes. -/
def accented : Event :=
  ⟨none, none, some 2, .textMessageContent "m" "café"⟩

theorem storable_accented : accented.Storable where
  decoded :=
    ⟨"\x7b\"delta\":\"café\",\"messageId\":\"m\",\"sequenceNumber\":2,"
      ++ "\"type\":\"TEXT_MESSAGE_CONTENT\"\x7d",
     by cbv⟩
  whole := rfl
  shallow := by decide

/-- A place of files, and what it is after the progress of one event is saved there. -/
def place : Files := { path := "runs" }

def saved : Files := (place.save "key" (.ofEvents [opening])).2

theorem saves : place.save "key" (.ofEvents [opening]) = (.ok (), saved) :=
  Prod.ext (by decide +kernel) rfl

end TornUse

namespace Files

open MixedUse TornUse

/-- Three characters and the newline are lost. -/
theorem load_torn_behind_character :
    ∃ before after torn,
      saved.appendAll "key" [(snapshot, 2)] = (.ok (), before) ∧
        before.append "key" accented 3 = (.ok (), after) ∧
        after.lose "key" 4 = .ok torn ∧
        torn.load "key" =
          .ok (some ((Progress.ofEvents [opening]).recordAll [(snapshot, 2)]), torn) := by
  have own : ∀ event ∈ (Progress.ofEvents [opening]).events, event.Storable :=
    List.forall_mem_singleton.mpr storable_opening
  have more : ∀ entry ∈ [(snapshot, (2 : UInt64))], entry.1.Storable :=
    List.forall_mem_singleton.mpr storable_snapshot
  have inside : 4 ≤ (lineOf (entryOf accented 3)).length := by decide +kernel
  have between :
      cutsBetween accented 3 ((lineOf (entryOf accented 3)).length - 4) = true := by
    decide +kernel
  obtain ⟨before, after, torn, appended, -, appendedLast, cut, result⟩ :=
    load_torn saves (Progress.consistent_ofEvents _) own more storable_accented inside
  rw [if_pos between] at result
  exact ⟨before, after, torn, appended, appendedLast, cut, result⟩

/-- One byte more is lost, and with it all that was saved. -/
theorem dropped_when_torn_in_character :
    ∃ after torn left,
      saved.append "key" accented 2 = (.ok (), after) ∧
        after.lose "key" 5 = .ok torn ∧
        torn.load "key" = .ok (none, left) ∧
        left.folder.read (nameOf "key") left.longestName = .error .notFound := by
  have stored := holds_of_save saves
  rw [fileOf_eq] at stored
  obtain ⟨after, appended, held⟩ := stored.append accented 2
  obtain ⟨torn, cut, rest⟩ := held.lose 5
  have inside : 5 ≤ (lineOf (entryOf accented 2)).length := by decide +kernel
  have through :
      cutsBetween accented 2 ((lineOf (entryOf accented 2)).length - 5) = false := by
    decide +kernel
  rw [List.length_append, Nat.add_sub_assoc inside, List.take_length_add_append] at rest
  obtain ⟨left, loaded, gone⟩ := rest.load_spoilt (ofFile?_spoilt (Nat.sub_le _ _) through)
  exact ⟨after, torn, left, appended, cut, loaded, gone⟩

end Files

end Resume

end AgentWire

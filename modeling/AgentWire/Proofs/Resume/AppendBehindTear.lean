import AgentWire.Proofs.Json.BegunAnew
import AgentWire.Proofs.Resume.TornWrite

namespace AgentWire.Resume

/-!
# Events behind a torn line

A file whose last line lost its end is appended to as any other.  The next event then stands on
the torn line, which is no entry any more, and reading the file ends there: the event is lost,
and so is every later one.
-/

open Json (Decoder Reading)

section Lines

variable
  {event : Event}
  {start : List Char}

/-- The line of an entry opens with the name of the number that it carries. -/
theorem write_entryOf
    (event : Event)
    (lastNumber : UInt64) :
    ∃ rest, (entryOf event lastNumber).write = '\x7b' :: '"' :: 'l' :: rest :=
  ⟨_, rfl⟩

/-- No entry is read from a line that was begun before. -/
theorem decodeEntry_begunAnew
    (storable : event.Storable)
    (lastNumber : UInt64)
    (opens : start.head? = some '\x7b') :
    ∃ refusal,
      decodeEntry.text (String.ofList (start ++ (entryOf event lastNumber).write)) =
        .error refusal := by
  cases read : decodeEntry.text (String.ofList (start ++ (entryOf event lastNumber).write)) with
  | error refusal => exact ⟨refusal, rfl⟩
  | ok entry =>
      obtain ⟨decoded, single⟩ := Decoder.text_eq_ok.mp read
      rw [decodeEntry, Json.bind_eq_ok] at decoded
      obtain ⟨parts, found, -⟩ := decoded
      obtain ⟨rest, written⟩ := write_entryOf event lastNumber
      have whole : (entryOf event lastNumber).wholeNumbers = true := wholeNumbers_entryOf storable
      obtain breaks | trailing :=
        Json.not_read_of_anew whole written (by decide) (by decide) opens
      · exact absurd (Json.Schema.whole_of_parts thorough_entrySchema found) breaks
      · cases trailing.symm.trans single

/-- Reading ends at a line that was begun before. -/
theorem recordLines_begunAnew
    (progress : Progress)
    (storable : event.Storable)
    (lastNumber : UInt64)
    (opens : start.head? = some '\x7b')
    (rest : List String) :
    recordLines progress (String.ofList (start ++ (entryOf event lastNumber).write) :: rest) =
      progress := by
  obtain ⟨refusal, refused⟩ := decodeEntry_begunAnew storable lastNumber opens
  have solid :
      Text.isBlankText (String.ofList (start ++ (entryOf event lastNumber).write)) = false := by
    obtain ⟨more, rfl⟩ := List.head?_eq_some_iff.mp opens
    rw [Text.isBlankText, String.toList_ofList, List.cons_append, List.all_cons]
    exact Bool.false_and _
  simp only [recordLines, solid, refused, Bool.false_eq_true, if_false]

end Lines

section Contents

variable
  {header : Progress}
  {entries later : List (Event × UInt64)}
  {event : Event}
  {lastNumber : UInt64}
  {kept : Nat}

/-- A file is read up to a line that was begun before, whatever stands behind it. -/
theorem ofFile?_begunAnew
    (storable : ∀ entry ∈ entries, entry.1.Storable)
    (laterStorable : ∀ entry ∈ (event, lastNumber) :: later, entry.1.Storable)
    {start : List Char}
    (opens : start.head? = some '\x7b')
    (plain : '\n' ∉ start ∧ '\r' ∉ start) :
    ofFile?
        (contentOf header entries
          ++ (Text.Utf8.encode (String.ofList start)
            ++ entryLines ((event, lastNumber) :: later))) =
      some ({ header with events := [] }.recordAll entries) := by
  obtain ⟨storableNext, storableLater⟩ := List.forall_mem_cons.mp laterStorable
  have whole : (entryOf event lastNumber).wholeNumbers = true := wholeNumbers_entryOf storableNext
  have written := Json.plain_write _ whole
  have single :
      '\n' ∉ start ++ (entryOf event lastNumber).write ∧
        '\r' ∉ start ++ (entryOf event lastNumber).write := by
    simp [plain, written.not_newline, written.not_return]
  have shape :
      Text.Utf8.encode (String.ofList start) ++ entryLines ((event, lastNumber) :: later) =
        Text.Utf8.encode
            (String.ofList (start ++ (entryOf event lastNumber).write ++ ['\n']))
          ++ (later.map fun entry => entryOf entry.1 entry.2).flatMap lineOf := by
    simp only [entryLines, List.map_cons, List.flatMap_cons, lineOf_eq, List.append_assoc,
      String.ofList_append, Text.Utf8.encode_append]
  have noted := recordLines_entries { header with events := [] } storable
    (String.ofList (start ++ (entryOf event lastNumber).write)
      :: (later.map fun entry => entryOf entry.1 entry.2).map Json.text)
  rw [recordLines_begunAnew _ storableNext lastNumber opens] at noted
  rw [ofFile?, shape, contentOf,
    lines_documents_between (wholeNumbers_contentOf storable) (wholeNumbers_entries storableLater)
      single,
    List.map_cons, List.map_map, List.cons_append]
  simp only [decodeHeader_text]
  exact congrArg some noted

/-- What is left of a torn line, if anything is, opens an object and ends no line. -/
theorem opens_of_prefix
    {start : List Char}
    (storable : event.Storable)
    (early : start <+: (entryOf event lastNumber).write)
    (nonempty : start ≠ []) :
    start.head? = some '\x7b' ∧ '\n' ∉ start ∧ '\r' ∉ start := by
  have whole : (entryOf event lastNumber).wholeNumbers = true := wholeNumbers_entryOf storable
  have written := Json.plain_write _ whole
  obtain ⟨rest, shape⟩ := write_entryOf event lastNumber
  obtain ⟨first, more, rfl⟩ := List.exists_cons_of_ne_nil nonempty
  refine ⟨?_, fun member => written.not_newline (early.subset member),
    fun member => written.not_return (early.subset member)⟩
  rw [shape, List.cons_prefix_cons] at early
  rw [List.head?_cons, early.1]

/--
Events are appended to a file whose last line was cut off between two characters.  If nothing of
the line is lost, or all of it, they are read; otherwise they are lost, and so is the event of
the line itself.
-/
theorem ofFile?_appended
    (storable : ∀ entry ∈ entries, entry.1.Storable)
    (last : event.Storable)
    (laterStorable : ∀ entry ∈ later, entry.1.Storable)
    (added : later ≠ [])
    (inside : kept ≤ (lineOf (entryOf event lastNumber)).length)
    (between : cutsBetween event lastNumber kept = true) :
    ofFile?
        (contentOf header entries
          ++ ((lineOf (entryOf event lastNumber)).take kept ++ entryLines later)) =
      some (
        if kept = 0 then
          { header with events := [] }.recordAll (entries ++ later)
        else if kept = (lineOf (entryOf event lastNumber)).length then
          { header with events := [] }.recordAll (entries ++ (event, lastNumber) :: later)
        else
          { header with events := [] }.recordAll entries) := by
  rw [cutsBetween, ← String.toList_ofList (l := _ ++ _)] at between
  obtain ⟨start, early, taken⟩ := Text.Utf8.exists_take_eq between
  rw [← lineOf_eq] at taken
  rw [String.toList_ofList] at early
  split
  · next nothing =>
    rw [nothing, List.take_zero, List.nil_append, contentOf_append_entryLines]
    exact ofFile?_contentOf (List.forall_mem_append.mpr ⟨storable, laterStorable⟩)
  · next something =>
    split
    · next everything =>
      rw [everything, List.take_length, ← List.append_assoc, ← entryLines_singleton,
        contentOf_append_entryLines, contentOf_append_entryLines, List.append_assoc]
      exact ofFile?_contentOf
        (List.forall_mem_append.mpr ⟨storable, List.forall_mem_cons.mpr ⟨last, laterStorable⟩⟩)
    · next short =>
      obtain ⟨⟨next, number⟩, rest, rfl⟩ := List.exists_cons_of_ne_nil added
      -- What is left of the line runs into the next entry, and no line can be read from there on.
      have size : (Text.Utf8.encode (String.ofList start)).length = kept := by
        rw [← taken, List.length_take, Nat.min_eq_left inside]
      have nonempty : start ≠ [] := by
        rintro rfl
        rw [Text.Utf8.encode_ofList_eq_nil.mpr rfl, List.length_nil] at size
        exact something size.symm
      have torn : start <+: (entryOf event lastNumber).write := by
        rcases List.prefix_concat_iff.mp early with rfl | torn
        · rw [← lineOf_eq] at size
          exact absurd size.symm short
        · exact torn
      obtain ⟨opens, plain⟩ := opens_of_prefix last torn nonempty
      rw [taken]
      exact ofFile?_begunAnew storable laterStorable opens plain

end Contents

namespace Files

theorem appendAll_singleton
    (place : Files)
    (key : String)
    (event : Event)
    (lastNumber : UInt64) :
    place.appendAll key [(event, lastNumber)] = place.append key event lastNumber := by
  rw [appendAll]
  split
  · next appended => rw [appended, appendAll]
  · next refused => rw [refused]

section Tear

variable
  {torn : Files}
  {key : String}
  {header : Progress}
  {entries : List (Event × UInt64)}
  {event : Event}
  {lastNumber : UInt64}
  {lost : Nat}

/-- Events behind a torn line are lost, unless the line is lost as a whole or not at all. -/
theorem Holds.load_behind_tear
    (holds :
      torn.Holds key
        (contentOf header entries
          ++ (lineOf (entryOf event lastNumber)).take
              ((lineOf (entryOf event lastNumber)).length - lost)))
    (storable : ∀ entry ∈ entries, entry.1.Storable)
    (last : event.Storable)
    (inside : lost ≤ (lineOf (entryOf event lastNumber)).length)
    (between :
      cutsBetween event lastNumber ((lineOf (entryOf event lastNumber)).length - lost) = true)
    {later : List (Event × UInt64)}
    (laterStorable : ∀ entry ∈ later, entry.1.Storable)
    (added : later ≠ []) :
    ∃ next,
      torn.appendAll key later = (.ok (), next) ∧
        next.load key =
          .ok
            (some
              (if lost = (lineOf (entryOf event lastNumber)).length then
                ({ header with events := [] }.recordAll entries).recordAll later
              else if lost = 0 then
                (({ header with events := [] }.recordAll entries).recordAt event lastNumber).recordAll
                  later
              else
                { header with events := [] }.recordAll entries),
             next) := by
  obtain ⟨next, appended, held⟩ := holds.appendLines later
  refine ⟨next, appended, held.load_known ?_⟩
  have size := length_lineOf (entryOf event lastNumber)
  have nothing :
      (lineOf (entryOf event lastNumber)).length - lost = 0 ↔
        lost = (lineOf (entryOf event lastNumber)).length := by
    omega
  have everything :
      (lineOf (entryOf event lastNumber)).length - lost =
          (lineOf (entryOf event lastNumber)).length ↔
        lost = 0 := by
    omega
  rw [List.append_assoc,
    ofFile?_appended storable last laterStorable added (Nat.sub_le _ _) between,
    Progress.recordAll_append, Progress.recordAll_append]
  simp only [nothing, everything]
  rfl

end Tear

/--
Progress is saved, events are appended, the line of the last one loses its end between two
characters, and then more events are appended, which succeeds.  If the line was lost as a whole or
not at all, they are noted in what is loaded next.  Otherwise neither they are nor the event of
that line, which was loaded before if no more than the newline was lost.
-/
theorem load_appended_behind_tear
    {place saved : Files}
    {key : String}
    {progress : Progress}
    {entries later : List (Event × UInt64)}
    {event : Event}
    {lastNumber : UInt64}
    {lost : Nat}
    (saves : place.save key progress = (.ok (), saved))
    (consistent : progress.Consistent)
    (ownStorable : ∀ event ∈ progress.events, event.Storable)
    (storable : ∀ entry ∈ entries, entry.1.Storable)
    (last : event.Storable)
    (laterStorable : ∀ entry ∈ later, entry.1.Storable)
    (added : later ≠ [])
    (inside : lost ≤ (lineOf (entryOf event lastNumber)).length)
    (between :
      cutsBetween event lastNumber ((lineOf (entryOf event lastNumber)).length - lost) = true) :
    ∃ before after torn next,
      saved.appendAll key entries = (.ok (), before) ∧
        before.append key event lastNumber = (.ok (), after) ∧
        after.lose key lost = .ok torn ∧
        torn.load key =
          .ok
            (some
              (if lost ≤ 1 then
                (progress.recordAll entries).recordAt event lastNumber
              else
                progress.recordAll entries),
             torn) ∧
        torn.appendAll key later = (.ok (), next) ∧
        next.load key =
          .ok
            (some
              (if lost = (lineOf (entryOf event lastNumber)).length then
                (progress.recordAll entries).recordAll later
              else if lost = 0 then
                ((progress.recordAll entries).recordAt event lastNumber).recordAll later
              else
                progress.recordAll entries),
             next) := by
  obtain ⟨before, after, torn, appended, -, appendedLast, cut, left⟩ :=
    exists_torn saves entries inside
  have all : ∀ entry ∈ progress.events.map (·, progress.lastNumber) ++ entries,
      entry.1.Storable :=
    List.forall_mem_append.mpr ⟨storable_own ownStorable, storable⟩
  have known := consistent.recordAll_own_append entries
  have loaded := left.load_before_tear all last inside between
  obtain ⟨next, more, loadedNext⟩ :=
    left.load_behind_tear all last inside between laterStorable added
  rw [known] at loaded loadedNext
  exact ⟨before, after, torn, next, appended, appendedLast, cut, loaded, more, loadedNext⟩

open MixedUse TornUse

/-- Only the newline is lost: the event is loaded, until the next one is appended. -/
theorem load_appended_behind_lost_newline :
    ∃ before after torn next,
      saved.appendAll "key" [(snapshot, 2)] = (.ok (), before) ∧
        before.append "key" accented 3 = (.ok (), after) ∧
        after.lose "key" 1 = .ok torn ∧
        torn.load "key" =
          .ok
            (some (((Progress.ofEvents [opening]).recordAll [(snapshot, 2)]).recordAt accented 3),
             torn) ∧
        torn.appendAll "key" [(opening, 4), (snapshot, 5)] = (.ok (), next) ∧
        next.load "key" =
          .ok (some ((Progress.ofEvents [opening]).recordAll [(snapshot, 2)]), next) := by
  have own : ∀ event ∈ (Progress.ofEvents [opening]).events, event.Storable :=
    List.forall_mem_singleton.mpr storable_opening
  have more : ∀ entry ∈ [(snapshot, (2 : UInt64))], entry.1.Storable :=
    List.forall_mem_singleton.mpr storable_snapshot
  have later : ∀ entry ∈ [(opening, (4 : UInt64)), (snapshot, 5)], entry.1.Storable :=
    List.forall_mem_cons.mpr ⟨storable_opening, List.forall_mem_singleton.mpr storable_snapshot⟩
  have size := length_lineOf (entryOf accented 3)
  have inside : 1 ≤ (lineOf (entryOf accented 3)).length := by omega
  have between :
      cutsBetween accented 3 ((lineOf (entryOf accented 3)).length - 1) = true := by
    decide +kernel
  have filled : (lineOf (entryOf accented 3)).length ≠ 1 := by decide +kernel
  obtain ⟨before, after, torn, next, appended, appendedLast, cut, loaded, appendedLater, lost⟩ :=
    load_appended_behind_tear saves (Progress.consistent_ofEvents _) own more storable_accented
      later (by simp) inside between
  rw [if_pos (Nat.le_refl 1)] at loaded
  rw [if_neg filled.symm, if_neg (by decide)] at lost
  exact ⟨before, after, torn, next, appended, appendedLast, cut, loaded, appendedLater, lost⟩

/-- Three characters and the newline are lost, and then an event that was appended without fault. -/
theorem appended_lost_behind_tear :
    ∃ after torn next progress,
      saved.append "key" accented 2 = (.ok (), after) ∧
        after.lose "key" 4 = .ok torn ∧
        torn.load "key" = .ok (some progress, torn) ∧
        torn.append "key" snapshot 3 = (.ok (), next) ∧
        next.load "key" ≠ .ok (some (progress.recordAt snapshot 3), next) := by
  have inside : 4 ≤ (lineOf (entryOf accented 2)).length := by decide +kernel
  have between :
      cutsBetween accented 2 ((lineOf (entryOf accented 2)).length - 4) = true := by
    decide +kernel
  have filled : (lineOf (entryOf accented 2)).length ≠ 4 := by decide +kernel
  have own : ∀ event ∈ (Progress.ofEvents [opening]).events, event.Storable :=
    List.forall_mem_singleton.mpr storable_opening
  have later : ∀ entry ∈ [(snapshot, (3 : UInt64))], entry.1.Storable :=
    List.forall_mem_singleton.mpr storable_snapshot
  obtain ⟨before, after, torn, nothing, -, appended, cut, left⟩ := exists_torn saves [] inside
  rw [appendAll, Prod.mk.injEq] at nothing
  obtain ⟨-, rfl⟩ := nothing
  rw [List.append_nil] at left
  have loaded := left.load_before_tear (storable_own own) storable_accented inside between
  obtain ⟨next, appendedNext, loadedNext⟩ :=
    left.load_behind_tear (storable_own own) storable_accented inside between later (by simp)
  rw [if_neg (by decide)] at loaded
  rw [if_neg filled.symm, if_neg (by decide)] at loadedNext
  rw [appendAll_singleton] at appendedNext
  refine ⟨after, torn, next, _, appended, cut, loaded, appendedNext, ?_⟩
  rw [loadedNext]
  intro same
  simp only [Except.ok.injEq, Prod.mk.injEq, Option.some.injEq, and_true] at same
  exact Progress.recordAt_ne _ _ _ same.symm

end Files

end AgentWire.Resume

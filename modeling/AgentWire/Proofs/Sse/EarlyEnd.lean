import AgentWire.Proofs.Sse.Body

namespace AgentWire.Sse

/-!
# Bodies that end too early

A body may end anywhere, and its last line is read as if it were whole.  If no more than the
newline of the line is missing, it is; if some of its data has arrived and not all, the data is
no event and the body ends with an error that forbids another attempt.
-/

open Client (ClientError)

section Payloads

variable
  {data : String}
  {event : Event}

/-- A problem of the text cannot be mended by trying again. -/
theorem isRetryable_ofProblem (problem : Problem) :
    (ClientError.ofProblem problem).isRetryable = false := by
  cases problem <;> rfl

theorem fatal_none
    (error : ClientError)
    (given : none = some error) :
    error.isRetryable = false :=
  absurd given.symm (Option.some_ne_none error)

/-- Data that is no event and not the mark of the end is an error. -/
theorem frameOfData_unread
    (some : data ≠ "")
    (other : data ≠ doneMark)
    (unread : ∀ event, Event.ofText data ≠ .ok event) :
    ∃ error, Line.frameOfData data = .error error ∧ error.isRetryable = false := by
  have nonempty : data.isEmpty = false := by simpa using some
  cases read : Event.ofText data with
  | ok event => exact absurd read (unread event)
  | error problem =>
      refine ⟨.ofProblem problem, ?_, isRetryable_ofProblem problem⟩
      simp only [Line.frameOfData, nonempty, other, read, Bool.false_eq_true, if_false]

/-- Data that stands for a frame, and whose beginnings stand for none. -/
structure Payload (data : String) (frame : Client.Frame) : Prop where
  plain : Json.Plain data.toList
  opens : ∃ first, data.toList.head? = some first ∧ Text.isBlank first = false
  whole : (lineOf ("data: " ++ data)).frame = .ok (some frame)
  torn :
    ∀ start, start <+: data.toList → start ≠ [] → start ≠ data.toList →
      ∃ error,
        Line.frameOfData (String.ofList start) = .error error ∧ error.isRetryable = false

/-- The line of a payload holds no control characters. -/
theorem Payload.plain_line
    {frame : Client.Frame}
    (payload : Payload data frame) :
    Json.Plain ("data: " ++ data).toList := by
  have label : Json.Plain "data: ".toList := by simp [Json.Plain]
  rw [String.toList_append]
  exact label.append payload.plain

/-- The beginning of the text of an event is no event. -/
theorem ofText_beginning_ne_ok
    (whole : event.encode.wholeNumbers = true)
    {start : List Char}
    (early : start <+: event.encode.write)
    (short : start ≠ event.encode.write)
    (other : Event) :
    Event.ofText (String.ofList start) ≠ .ok other := by
  intro read
  obtain ⟨document, read, -⟩ := Event.ofText_eq_ok.mp read
  have root := (Json.Decoder.text_eq_ok.mp read).1
  rw [Event.encode_eq] at whole early short
  exact Json.not_whole_of_prefix whole early short (Json.Draft.whole_of_document _ root)

/-- A legible event is a payload. -/
theorem payload_event (legible : event.Legible) : Payload event.text (.event event) := by
  have written : event.text.toList = event.encode.write := String.toList_ofList
  have opens : event.text.toList.head? = some '\x7b' := by
    rw [written, Event.encode_eq, Json.write]
    rfl
  refine ⟨written ▸ Json.plain_write _ legible.whole, ⟨_, opens, by decide⟩,
    frame_event legible, ?_⟩
  intro start early some short
  rw [written] at early short opens
  refine frameOfData_unread ?_ ?_ (ofText_beginning_ne_ok legible.whole early short)
  · simpa using some
  · intro same
    have chars : start = doneMark.toList := by rw [← same, String.toList_ofList]
    obtain ⟨rest, split⟩ := early
    rw [← split, chars] at opens
    cases opens

/-- The mark of the end is a payload. -/
theorem payload_done : Payload doneMark .done := by
  refine ⟨by simp [doneMark, Json.Plain], ⟨'[', rfl, by decide⟩, frame_done, ?_⟩
  intro start early some short
  have cut := List.prefix_iff_eq_take.mp early
  have fewer : start.length < 6 :=
    Nat.lt_of_le_of_ne early.length_le fun same => short (early.eq_of_length same)
  have unread :
      ∀ kept < 6, (Event.ofText (String.ofList (doneMark.toList.take kept))).isOk = false := by
    decide +kernel
  refine frameOfData_unread ?_ ?_ ?_
  · simpa using some
  · intro same
    exact short (by rw [← same, String.toList_ofList])
  · intro event read
    have refused := unread start.length fewer
    rw [← cut, read] at refused
    cases refused

end Payloads

section Pieces

variable
  {data : String}
  {frame : Client.Frame}
  {kept : Nat}

/-- Data behind a blank is read without it, and without the blanks at its end. -/
theorem trim_opened
    {chars : List Char}
    {first : Char}
    (opens : chars.head? = some first)
    (firstKept : Text.isBlank first = false) :
    ∃ trimmed, trimmed <+: chars ∧ trimmed ≠ [] ∧
      Text.trim (String.ofList (' ' :: chars)) = String.ofList trimmed := by
  have blank : Text.isBlank ' ' = true := by decide
  obtain ⟨rest, rfl⟩ := List.head?_eq_some_iff.mp opens
  have leading : (' ' :: first :: rest).dropWhile Text.isBlank = first :: rest := by
    rw [List.dropWhile_cons_of_pos blank, List.dropWhile_cons_of_neg (by simp [firstKept])]
  refine ⟨((first :: rest).reverse.dropWhile Text.isBlank).reverse, ?_, ?_, ?_⟩
  · rw [← List.reverse_suffix, List.reverse_reverse]
    exact List.dropWhile_suffix _
  · intro nothing
    have all := List.any_dropWhile (p := Text.isBlank) (l := (first :: rest).reverse)
    rw [List.reverse_eq_nil_iff.mp nothing] at all
    simp [firstKept] at all
  · rw [Text.trim, Text.trimBy, String.toList_ofList, leading]

/-- The bytes of a label that some data stands behind. -/
theorem length_label : (Text.Utf8.encode "data: ").length = 6 := by
  decide +kernel

/-- A line of data that is cut keeps what it can of its label, and then of its data. -/
theorem take_labelled
    (data : String)
    (kept : Nat) :
    (Text.Utf8.encode ("data: " ++ data)).take kept =
      (Text.Utf8.encode "data: ").take kept ++ (Text.Utf8.encode data).take (kept - 6) := by
  rw [Text.Utf8.encode_append, List.take_append, length_label]

/-- A piece of a label carries no data. -/
theorem frame_label (short : kept ≤ 6) :
    Line.frame ⟨(Text.Utf8.encode "data: ").take kept, false⟩ = .ok none := by
  have each :
      ∀ kept < 7,
        (Line.frame ⟨(Text.Utf8.encode "data: ").take kept, false⟩).toOption = some none := by
    decide +kernel
  exact Json.eq_ok_of_toOption (each kept (by omega))

/-- The size of each character of a fixed text can be tested. -/
theorem narrow_of_all
    {text : String}
    (all : text.toList.all (fun c => c.utf8Size == 1) = true) :
    ∀ c ∈ text.toList, c.utf8Size = 1 :=
  fun c member => eq_of_beq (List.all_eq_true.mp all c member)

/-- A piece of a line without data, if its characters take one byte each, carries none. -/
theorem frame_narrow
    {text : String}
    (narrow : ∀ c ∈ text.toList, c.utf8Size = 1)
    (dataless : Dataless text)
    (inside : kept ≤ (Text.Utf8.encode text).length) :
    Line.frame ⟨(Text.Utf8.encode text).take kept, false⟩ = .ok none := by
  rw [Text.Utf8.encode_eq] at inside
  obtain ⟨start, early, taken⟩ :=
    Text.Utf8.exists_take_eq (Text.Utf8.endsCharacter_of_narrow narrow inside)
  have unlabelled : dataOf? (String.ofList start) = none := by
    rw [dataOf?, String.toList_ofList, if_neg]
    intro labelled
    have whole := (List.isPrefixOf_iff_prefix.mp labelled).trans early
    rw [Dataless, List.isPrefixOf_iff_prefix.mpr whole] at dataless
    cases dataless
  simp only [Line.frame, taken, Text.Utf8.decode?_encode, unlabelled]

/-- A piece of some data is an error. -/
theorem frame_torn
    (payload : Payload data frame)
    (begun : kept ≠ 0)
    (short : kept < (Text.Utf8.encode data).length) :
    ∃ error,
      Line.frame ⟨Text.Utf8.encode "data: " ++ (Text.Utf8.encode data).take kept, false⟩ =
          .error error ∧
        error.isRetryable = false := by
  cases ends : Text.Utf8.endsCharacter data.toList kept with
  | false =>
      -- Cut within a character, the line is no text.
      have spoilt := Text.Utf8.decode?_take_eq_none (Nat.le_of_lt short) ends "data: "
      simp only [Line.frame, spoilt]
      exact ⟨_, rfl, rfl⟩
  | true =>
      obtain ⟨start, early, taken⟩ := Text.Utf8.exists_take_eq ends
      have size : (Text.Utf8.encode (String.ofList start)).length = kept := by
        rw [← taken, List.length_take, Nat.min_eq_left (Nat.le_of_lt short)]
      have nonempty : start ≠ [] := by
        rintro rfl
        rw [Text.Utf8.encode_ofList_eq_nil.mpr rfl] at size
        exact begun size.symm
      obtain ⟨first, opens, firstKept⟩ := payload.opens
      have opensStart : start.head? = some first := by
        obtain ⟨c, more, rfl⟩ := List.exists_cons_of_ne_nil nonempty
        obtain ⟨rest, split⟩ := early
        rw [← split] at opens
        exact opens
      obtain ⟨trimmed, within, left, trims⟩ := trim_opened opensStart firstKept
      -- Trimming takes blanks off the end, so the data is still not the whole.
      have shorter : trimmed ≠ data.toList := by
        rintro rfl
        have same : start = data.toList := early.eq_of_length_le within.length_le
        rw [same, String.ofList_toList] at size
        omega
      obtain ⟨error, torn, fatal⟩ := payload.torn trimmed (within.trans early) left shorter
      refine ⟨error, ?_, fatal⟩
      have chars : ("data: " ++ String.ofList start).toList = dataLabel ++ ' ' :: start := by
        simp [dataLabel]
      have labelled : dataLabel.isPrefixOf (dataLabel ++ ' ' :: start) = true :=
        List.isPrefixOf_iff_prefix.mpr (List.prefix_append _ _)
      have read : dataOf? ("data: " ++ String.ofList start) = some (String.ofList trimmed) := by
        rw [dataOf?, chars, if_pos labelled, List.drop_left, trims]
      rw [taken, ← Text.Utf8.encode_append]
      simp only [Line.frame, Text.Utf8.decode?_encode, read, torn]

end Pieces

section Arrived

/-- The line that is open behind the last newline of some bytes. -/
def openLine (arrived : Text.Bytes) : Text.Bytes :=
  (Text.cutLines Text.newlineByte Text.carriageByte [] arrived).2.reverse

/-- How many lines of data have arrived as a whole, with their newlines. -/
def dataLines (arrived : Text.Bytes) : Nat :=
  (Text.cutLines Text.newlineByte Text.carriageByte [] arrived).1.countP
    (Text.Utf8.encode "data: ").isPrefixOf

/-- Whether a line has begun to carry data. -/
def BeginsData (line : Text.Bytes) : Prop :=
  Text.Utf8.encode "data: " <+: line ∧ Text.Utf8.encode "data: " ≠ line

/--
What is read of a body that has arrived up to some byte: frames of the body, among them those of
all lines that are whole; and no error, unless data was cut off.
-/
structure CutShort
    (body : Text.Bytes)
    (frames : List Client.Frame)
    (arrived : Text.Bytes) :
    Prop where
  early : (readBody [.ok arrived]).1 <+: frames
  complete : dataLines arrived ≤ (readBody [.ok arrived]).1.length
  sound :
    (readBody [.ok arrived]).2 = none ↔
      (BeginsData (openLine arrived) → arrived ++ [Text.newlineByte] <+: body)
  fatal : ∀ error, (readBody [.ok arrived]).2 = some error → error.isRetryable = false

variable
  {line : String}
  {lines : List String}
  {rest : Text.Bytes}

/-- Behind a line that is closed, the others are read. -/
theorem readBody_line
    (single : '\n' ∉ line.toList)
    (rest : Text.Bytes) :
    readBody [.ok (Text.Utf8.encode line ++ Text.newlineByte :: rest)] =
      framesOf (lineOf line :: linesOf [] [.ok rest]) := by
  have singleBytes : Text.newlineByte ∉ Text.Utf8.encode line :=
    Text.Utf8.not_mem_encode rfl (by decide) single
  simp [readBody, linesOf, cutPiece, Text.cutLines_line singleBytes, lineOf, Text.closeLine_encode]

/-- A line that is closed is not the open one. -/
theorem openLine_line
    (single : '\n' ∉ line.toList)
    (rest : Text.Bytes) :
    openLine (Text.Utf8.encode line ++ Text.newlineByte :: rest) = openLine rest := by
  have singleBytes : Text.newlineByte ∉ Text.Utf8.encode line :=
    Text.Utf8.not_mem_encode rfl (by decide) single
  rw [openLine, Text.cutLines_line singleBytes, openLine]

/-- A line that is closed counts if it carries data. -/
theorem dataLines_line
    (plain : Json.Plain line.toList)
    (rest : Text.Bytes) :
    dataLines (Text.Utf8.encode line ++ Text.newlineByte :: rest) =
      dataLines rest
        + if (Text.Utf8.encode "data: ").isPrefixOf (Text.Utf8.encode line) then 1 else 0 := by
  have singleBytes : Text.newlineByte ∉ Text.Utf8.encode line :=
    Text.Utf8.not_mem_encode rfl (by decide) plain.not_newline
  have uncarried : Text.carriageByte ∉ Text.Utf8.encode line :=
    Text.Utf8.not_mem_encode rfl (by decide) plain.not_return
  rw [dataLines, Text.cutLines_line singleBytes, List.append_nil, Text.closeLine_reverse uncarried,
    List.countP_cons, dataLines]

theorem isPrefixOf_labelled (data : String) :
    (Text.Utf8.encode "data: ").isPrefixOf (Text.Utf8.encode ("data: " ++ data)) = true := by
  rw [Text.Utf8.encode_append]
  exact List.isPrefixOf_iff_prefix.mpr (List.prefix_append _ _)

/-- A line of which only a part has arrived is all that is read. -/
theorem readBody_open
    {piece : Text.Bytes}
    (single : Text.newlineByte ∉ piece) :
    readBody [.ok piece] = framesOf (lastLine piece.reverse) ∧
      openLine piece = piece ∧ dataLines piece = 0 := by
  simp [readBody, linesOf, cutPiece, openLine, dataLines, Text.cutLines_open single]

/-- Where a line is cut off, a newline comes next only if nothing but that is missing. -/
theorem newline_next_iff
    {line : Text.Bytes}
    (single : Text.newlineByte ∉ line)
    (kept : Nat) :
    line.take kept ++ [Text.newlineByte] <+: line ++ Text.newlineByte :: rest ↔
      line.take kept = line := by
  constructor
  · intro early
    have split : line ++ Text.newlineByte :: rest =
        line.take kept ++ (line.drop kept ++ Text.newlineByte :: rest) := by
      rw [← List.append_assoc, List.take_append_drop]
    rw [split, List.prefix_append_right_inj] at early
    cases left : line.drop kept with
    | nil => exact List.take_of_length_le (List.drop_eq_nil_iff.mp left)
    | cons first more =>
        rw [left, List.cons_append, List.cons_prefix_cons] at early
        have member : first ∈ line := List.mem_of_mem_drop (left ▸ List.mem_cons_self)
        exact absurd (early.1 ▸ member) single
  · intro whole
    rw [whole]
    exact ⟨rest, by simp⟩

/-- What stands behind a line is cut off in the same place with and without the line. -/
theorem newline_behind_iff {line body arrived : Text.Bytes} :
    line ++ Text.newlineByte :: arrived ++ [Text.newlineByte] <+: line ++ Text.newlineByte :: body ↔
      arrived ++ [Text.newlineByte] <+: body := by
  simp [List.append_assoc, List.prefix_append_right_inj]

/-- A line without data does not begin with the label. -/
theorem isPrefixOf_of_dataless (dataless : Dataless line) :
    (Text.Utf8.encode "data: ").isPrefixOf (Text.Utf8.encode line) = false := by
  rw [← Bool.not_eq_true, List.isPrefixOf_iff_prefix]
  intro labelled
  have whole := Text.Utf8.prefix_of_encode_prefix labelled
  have start : dataLabel <+: line.toList := .trans ⟨[' '], rfl⟩ whole
  rw [Dataless, List.isPrefixOf_iff_prefix.mpr start] at dataless
  cases dataless

/-- A line without data does not begin to carry any. -/
theorem not_beginsData_of_dataless
    (dataless : Dataless line)
    {piece : Text.Bytes}
    (early : piece <+: Text.Utf8.encode line) :
    ¬BeginsData piece := by
  rintro ⟨label, -⟩
  have labelled := List.isPrefixOf_iff_prefix.mpr (label.trans early)
  rw [isPrefixOf_of_dataless dataless] at labelled
  cases labelled

section Steps

variable
  {body arrived : Text.Bytes}
  {frames : List Client.Frame}
  {data : String}
  {kept : Nat}

/-- A line without data makes no difference. -/
theorem CutShort.behind_silent
    (cutShort : CutShort body frames arrived)
    (plain : Json.Plain line.toList)
    (dataless : Dataless line) :
    CutShort (Text.Utf8.encode line ++ Text.newlineByte :: body) frames
      (Text.Utf8.encode line ++ Text.newlineByte :: arrived) := by
  have read :
      readBody [.ok (Text.Utf8.encode line ++ Text.newlineByte :: arrived)] =
        readBody [.ok arrived] := by
    rw [readBody_line plain.not_newline, framesOf, frame_dataless dataless, readBody]
  constructor
  case early =>
    rw [read]
    exact cutShort.early
  case complete =>
    rw [read, dataLines_line plain, isPrefixOf_of_dataless dataless]
    exact cutShort.complete
  case sound => rw [read, openLine_line plain.not_newline, cutShort.sound, newline_behind_iff]
  case fatal =>
    rw [read]
    exact cutShort.fatal

/-- A line with an event gives it. -/
theorem CutShort.behind_event
    {event : Event}
    (cutShort : CutShort body frames arrived)
    (payload : Payload data (.event event)) :
    CutShort (Text.Utf8.encode ("data: " ++ data) ++ Text.newlineByte :: body)
      (.event event :: frames)
      (Text.Utf8.encode ("data: " ++ data) ++ Text.newlineByte :: arrived) := by
  have plain := payload.plain_line
  have read :
      readBody [.ok (Text.Utf8.encode ("data: " ++ data) ++ Text.newlineByte :: arrived)] =
        (.event event :: (readBody [.ok arrived]).1, (readBody [.ok arrived]).2) := by
    rw [readBody_line plain.not_newline, framesOf, payload.whole]
    rfl
  constructor
  case early =>
    rw [read]
    exact List.cons_prefix_cons.mpr ⟨rfl, cutShort.early⟩
  case complete =>
    rw [read, dataLines_line plain, isPrefixOf_labelled]
    exact Nat.succ_le_succ cutShort.complete
  case sound =>
    rw [read, openLine_line plain.not_newline, newline_behind_iff]
    exact cutShort.sound
  case fatal =>
    rw [read]
    exact cutShort.fatal

theorem framesOf_lastLine
    {piece : Text.Bytes}
    (some : piece ≠ []) :
    framesOf (lastLine piece.reverse) = framesOf [⟨piece, false⟩] := by
  simp [lastLine, some]

/-- Behind the mark of the end, nothing is read; only an empty line may stand there. -/
theorem cutShort_behind_done (kept : Nat) :
    CutShort
      (Text.Utf8.encode ("data: " ++ doneMark) ++ Text.newlineByte :: [Text.newlineByte])
      [.done]
      (Text.Utf8.encode ("data: " ++ doneMark)
        ++ Text.newlineByte :: [Text.newlineByte].take kept) := by
  have plain := payload_done.plain_line
  have read :
      readBody
          [.ok (Text.Utf8.encode ("data: " ++ doneMark)
            ++ Text.newlineByte :: [Text.newlineByte].take kept)] =
        ([.done], none) := by
    rw [readBody_line plain.not_newline, framesOf, payload_done.whole]
  have behind :
      openLine ([Text.newlineByte].take kept) = [] ∧
        dataLines ([Text.newlineByte].take kept) = 0 := by
    cases kept with
    | zero => exact ⟨rfl, rfl⟩
    | succ more =>
        rw [List.take_succ_cons, List.take_nil]
        exact ⟨rfl, by decide +kernel⟩
  obtain ⟨opened, uncounted⟩ := behind
  have silent : ¬BeginsData [] := by
    rintro ⟨early, different⟩
    exact different (List.prefix_nil.mp early)
  constructor
  case early => simp [read]
  case complete => simp [read, dataLines_line plain, uncounted, isPrefixOf_labelled]
  case sound =>
    rw [read, openLine_line plain.not_newline, opened]
    exact iff_of_true rfl fun begun => absurd begun silent
  case fatal =>
    rw [read]
    exact fatal_none

/-- It is enough to know what is read of a line that no newline has come for. -/
theorem CutShort.ofOpen
    {piece : Text.Bytes}
    {given : List Client.Frame}
    {refusal : Option ClientError}
    (single : Text.newlineByte ∉ piece)
    (read : framesOf (lastLine piece.reverse) = (given, refusal))
    (early : given <+: frames)
    (sound : refusal = none ↔ (BeginsData piece → piece ++ [Text.newlineByte] <+: body))
    (fatal : ∀ error, refusal = some error → error.isRetryable = false) :
    CutShort body frames piece := by
  obtain ⟨opened, whole, uncounted⟩ := readBody_open single
  rw [read] at opened
  constructor
  case early => rwa [opened]
  case complete => exact uncounted ▸ Nat.zero_le _
  case sound => rwa [opened, whole]
  case fatal => rwa [opened]

/-- Nothing is read of a piece that does not begin to carry data. -/
theorem cutShort_silent
    {piece : Text.Bytes}
    (single : Text.newlineByte ∉ piece)
    (unread : Line.frame ⟨piece, false⟩ = .ok none)
    (silent : ¬BeginsData piece) :
    CutShort body frames piece := by
  have nothing : framesOf (lastLine piece.reverse) = ([], none) := by
    cases piece with
    | nil => rfl
    | cons first rest =>
        rw [framesOf_lastLine (List.cons_ne_nil first rest), framesOf, unread]
        rfl
  exact .ofOpen single nothing List.nil_prefix
    (iff_of_true rfl fun begun => absurd begun silent) fatal_none

/-- A payload is read from a line that is still open. -/
theorem frame_open
    {frame : Client.Frame}
    (payload : Payload data frame) :
    Line.frame ⟨Text.Utf8.encode ("data: " ++ data), false⟩ = .ok (some frame) := by
  have whole := payload.whole
  rw [lineOf, Text.closeLine_reverse payload.plain_line.not_return, String.ofList_toList] at whole
  simpa only [Line.frame, Text.Utf8.decode?_encode] using whole

theorem length_labelled (data : String) :
    (Text.Utf8.encode ("data: " ++ data)).length = 6 + (Text.Utf8.encode data).length := by
  rw [Text.Utf8.encode_append, List.length_append, length_label]

section Data

variable
  {frame : Client.Frame}
  (payload : Payload data frame)

include payload

theorem Payload.newline_not_mem : Text.newlineByte ∉ Text.Utf8.encode ("data: " ++ data) :=
  Text.Utf8.not_mem_encode rfl (by decide) payload.plain_line.not_newline

/-- A line with data whose newline alone is missing gives its frame. -/
theorem cutShort_whole :
    CutShort (Text.Utf8.encode ("data: " ++ data) ++ Text.newlineByte :: body) (frame :: frames)
      (Text.Utf8.encode ("data: " ++ data)) := by
  have nonempty : Text.Utf8.encode ("data: " ++ data) ≠ [] := by
    intro nothing
    have size := length_labelled data
    rw [nothing, List.length_nil] at size
    omega
  have given :
      framesOf (lastLine (Text.Utf8.encode ("data: " ++ data)).reverse) = ([frame], none) := by
    rw [framesOf_lastLine nonempty, framesOf, frame_open payload]
    cases frame <;> rfl
  exact .ofOpen payload.newline_not_mem given ⟨frames, rfl⟩
    (iff_of_true rfl fun _ => ⟨body, by simp⟩) fatal_none

/-- A line of whose data only a part has arrived is an error. -/
theorem cutShort_torn
    (begun : 6 < kept)
    (short : kept < (Text.Utf8.encode ("data: " ++ data)).length) :
    CutShort (Text.Utf8.encode ("data: " ++ data) ++ Text.newlineByte :: body) (frame :: frames)
      ((Text.Utf8.encode ("data: " ++ data)).take kept) := by
  have size := length_labelled data
  have single : Text.newlineByte ∉ (Text.Utf8.encode ("data: " ++ data)).take kept :=
    fun member => payload.newline_not_mem (List.mem_of_mem_take member)
  -- In the body more data comes next, and not the end of the line.
  have more :
      ¬(Text.Utf8.encode ("data: " ++ data)).take kept ++ [Text.newlineByte] <+:
        Text.Utf8.encode ("data: " ++ data) ++ Text.newlineByte :: body := by
    rw [newline_next_iff payload.newline_not_mem]
    intro whole
    have length := congrArg List.length whole
    rw [List.length_take] at length
    omega
  have piece :
      (Text.Utf8.encode ("data: " ++ data)).take kept =
        Text.Utf8.encode "data: " ++ (Text.Utf8.encode data).take (kept - 6) := by
    rw [take_labelled, List.take_of_length_le (by rw [length_label]; omega)]
  rw [piece] at single more ⊢
  obtain ⟨error, torn, fatal⟩ := frame_torn payload (show kept - 6 ≠ 0 by omega) (by omega)
  have longer :
      (Text.Utf8.encode "data: ").length <
        (Text.Utf8.encode "data: " ++ (Text.Utf8.encode data).take (kept - 6)).length := by
    rw [List.length_append, List.length_take]
    omega
  have begins :
      BeginsData (Text.Utf8.encode "data: " ++ (Text.Utf8.encode data).take (kept - 6)) :=
    ⟨List.prefix_append _ _, fun same => Nat.ne_of_lt longer (congrArg List.length same)⟩
  have nonempty := List.ne_nil_of_length_pos (Nat.lt_of_le_of_lt (Nat.zero_le _) longer)
  have refused :
      framesOf
          (lastLine
            (Text.Utf8.encode "data: " ++ (Text.Utf8.encode data).take (kept - 6)).reverse) =
        ([], some error) := by
    rw [framesOf_lastLine nonempty, framesOf, torn]
  refine .ofOpen single refused List.nil_prefix ?_ ?_
  · exact iff_of_false (Option.some_ne_none error) fun next => more (next begins)
  · exact fun other same => Option.some.inj same ▸ fatal

/-- A piece of a line with data gives its frame, an error or nothing. -/
theorem cutShort_data (inside : kept ≤ (Text.Utf8.encode ("data: " ++ data)).length) :
    CutShort (Text.Utf8.encode ("data: " ++ data) ++ Text.newlineByte :: body) (frame :: frames)
      ((Text.Utf8.encode ("data: " ++ data)).take kept) := by
  rcases Nat.lt_or_ge 6 kept with begun | label
  · rcases Nat.lt_or_eq_of_le inside with short | whole
    · exact cutShort_torn payload begun short
    · rw [whole, List.take_length]
      exact cutShort_whole payload
  · have piece :
        (Text.Utf8.encode ("data: " ++ data)).take kept =
          (Text.Utf8.encode "data: ").take kept := by
      rw [take_labelled, Nat.sub_eq_zero_of_le label, List.take_zero, List.append_nil]
    refine cutShort_silent (fun member => payload.newline_not_mem (List.mem_of_mem_take member))
      (by rw [piece, frame_label label]) ?_
    rintro ⟨early, different⟩
    refine different (early.eq_of_length_le ?_)
    rw [List.length_take, length_label]
    omega

end Data

end Steps

end Arrived

section Bodies

/-- Lines of a body, and the frames that they carry. -/
inductive Carries : List String → List Client.Frame → Prop where
  | done : Carries ["data: " ++ doneMark, ""] [.done]
  | silent
      {line : String}
      {lines : List String}
      {frames : List Client.Frame}
      (plain : Json.Plain line.toList)
      (narrow : ∀ c ∈ line.toList, c.utf8Size = 1)
      (dataless : Dataless line)
      (rest : Carries lines frames) :
      Carries (line :: lines) frames
  | event
      {event : Event}
      {lines : List String}
      {frames : List Client.Frame}
      (legible : event.Legible)
      (rest : Carries lines frames) :
      Carries (("data: " ++ event.text) :: lines) (.event event :: frames)

/-- The first line comes first, with a newline behind it. -/
theorem encode_unlines_cons
    (line : String)
    (lines : List String) :
    Text.Utf8.encode (unlines (line :: lines)) =
      Text.Utf8.encode line ++ Text.newlineByte :: Text.Utf8.encode (unlines lines) := by
  rw [encode_unlines, encode_unlines, List.map_cons, List.flatMap_cons, List.append_assoc,
    List.singleton_append]

/-- Of a line and what is behind it, some of the line has arrived, or all of it and some more. -/
theorem take_line
    (line rest : Text.Bytes)
    (kept : Nat) :
    (kept ≤ line.length ∧
        (line ++ Text.newlineByte :: rest).take kept = line.take kept) ∨
      ∃ more,
        (line ++ Text.newlineByte :: rest).take kept =
          line ++ Text.newlineByte :: rest.take more := by
  rcases Nat.lt_or_ge line.length kept with behind | inside
  · obtain ⟨more, rfl⟩ := Nat.exists_eq_add_of_lt behind
    refine .inr ⟨more, ?_⟩
    rw [Nat.add_assoc, List.take_length_add_append, List.take_succ_cons]
  · exact .inl ⟨inside, List.take_append_of_le_length inside⟩

/-- The frames of a body that has arrived up to any byte. -/
theorem Carries.cutShort
    {lines : List String}
    {frames : List Client.Frame}
    (carries : Carries lines frames)
    (kept : Nat) :
    CutShort (Text.Utf8.encode (unlines lines)) frames
      ((Text.Utf8.encode (unlines lines)).take kept) := by
  -- Each case asks whether the cut is within the first line or behind it.
  induction carries generalizing kept with
  | done =>
      rw [encode_unlines_cons]
      rcases take_line (Text.Utf8.encode ("data: " ++ doneMark))
        (Text.Utf8.encode (unlines [""])) kept with ⟨inside, piece⟩ | ⟨more, piece⟩
      · rw [piece]
        exact cutShort_data payload_done inside
      · have empty : Text.Utf8.encode (unlines [""]) = [Text.newlineByte] := by decide +kernel
        rw [piece, empty]
        exact cutShort_behind_done more
  | @silent line lines frames plain narrow dataless rest inductionHypothesis =>
      rw [encode_unlines_cons]
      rcases take_line (Text.Utf8.encode line) (Text.Utf8.encode (unlines lines)) kept with
        ⟨inside, piece⟩ | ⟨more, piece⟩
      · rw [piece]
        have single : Text.newlineByte ∉ Text.Utf8.encode line :=
          Text.Utf8.not_mem_encode rfl (by decide) plain.not_newline
        exact cutShort_silent (fun member => single (List.mem_of_mem_take member))
          (frame_narrow narrow dataless inside)
          (not_beginsData_of_dataless dataless (List.take_prefix kept _))
      · rw [piece]
        exact (inductionHypothesis more).behind_silent plain dataless
  | @event event lines frames legible rest inductionHypothesis =>
      rw [encode_unlines_cons]
      rcases take_line (Text.Utf8.encode ("data: " ++ event.text))
        (Text.Utf8.encode (unlines lines)) kept with ⟨inside, piece⟩ | ⟨more, piece⟩
      · rw [piece]
        exact cutShort_data (payload_event legible) inside
      · rw [piece]
        exact (inductionHypothesis more).behind_event (payload_event legible)

/-- Lines without data in front carry nothing. -/
theorem carries_silent
    {silent lines : List String}
    {frames : List Client.Frame}
    (each :
      ∀ line ∈ silent,
        Json.Plain line.toList ∧ (∀ c ∈ line.toList, c.utf8Size = 1) ∧ Dataless line)
    (rest : Carries lines frames) :
    Carries (silent ++ lines) frames := by
  induction silent with
  | nil => exact rest
  | cons line others inductionHypothesis =>
      obtain ⟨⟨plain, narrow, dataless⟩, others⟩ := List.forall_mem_cons.mp each
      exact .silent plain narrow dataless (inductionHypothesis others)

/-- What is written in a silence is plain, of one byte a character and without data. -/
theorem silent_silence
    (keepAlive : KeepAlive)
    (silence : Nat) :
    ∀ line ∈ keepAlive.lines silence,
      Json.Plain line.toList ∧ (∀ c ∈ line.toList, c.utf8Size = 1) ∧ Dataless line := by
  intro line member
  refine ⟨plain_silence keepAlive silence line member, ?_,
    dataless_silence keepAlive silence line member⟩
  obtain ⟨sign, inside, among⟩ := List.mem_flatten.mp member
  obtain rfl := (List.mem_replicate.mp inside).2
  have each : ∀ line ∈ [": keep-alive", ""], ∀ c ∈ line.toList, c.utf8Size = 1 :=
    List.forall_mem_cons.mpr
      ⟨narrow_of_all (by decide), List.forall_mem_singleton.mpr (narrow_of_all (by decide))⟩
  exact each line among

/-- The digits of a number take one byte each. -/
theorem narrow_toDigits (value : Nat) : ∀ c ∈ Nat.toDigits 10 value, c.utf8Size = 1 := by
  intro c member
  have digit := Nat.isDigit_of_mem_toDigits (by decide) (by decide) member
  simp only [Char.isDigit, Bool.and_eq_true, decide_eq_true_eq] at digit
  exact Char.utf8Size_eq_one_iff.mpr (UInt32.le_trans digit.2 (by decide))

/-- What a frame has behind its data carries none. -/
theorem silent_behindData (event : Event) :
    ∀ line ∈ (Frame.ofEvent event).id.toList.map ("id: " ++ ·) ++ [""],
      Json.Plain line.toList ∧ (∀ c ∈ line.toList, c.utf8Size = 1) ∧ Dataless line := by
  refine List.forall_mem_append.mpr ⟨?_, List.forall_mem_singleton.mpr ⟨.nil, nofun, rfl⟩⟩
  intro line member
  obtain ⟨id, inside, rfl⟩ := List.mem_map.mp member
  rw [Frame.ofEvent, Option.toList_map, List.mem_map] at inside
  obtain ⟨number, -, rfl⟩ := inside
  have chars : ("id: " ++ toString number.toNat).toList =
      "id: ".toList ++ Nat.toDigits 10 number.toNat := by
    rw [String.toList_append, Nat.toString_eq_repr, Nat.repr]
    simp
  have label :
      Json.Plain "id: ".toList ∧ ∀ c ∈ "id: ".toList, c.utf8Size = 1 :=
    ⟨by simp [Json.Plain], narrow_of_all (by decide)⟩
  rw [Dataless, chars]
  exact ⟨label.1.append (Json.plain_toDigits _),
    List.forall_mem_append.mpr ⟨label.2, narrow_toDigits _⟩, rfl⟩

/-- The body of some events carries them, and the mark of the end behind them. -/
theorem carries_linesFrom
    (keepAlive : KeepAlive)
    {stream : Server.EventStream}
    (legible : ∀ event ∈ stream.events, event.Legible)
    (silence : Nat) :
    Carries (linesFrom keepAlive silence stream) (stream.events.map .event ++ [.done]) := by
  induction stream generalizing silence with
  | nil => exact carries_silent (silent_silence keepAlive silence) .done
  | cons next rest inductionHypothesis =>
      cases next with
      | pause milliseconds => exact inductionHypothesis legible _
      | arrival event =>
          obtain ⟨first, others⟩ := List.forall_mem_cons.mp legible
          have further := inductionHypothesis others 0
          have behind := carries_silent (silent_behindData event) further
          rw [linesFrom, List.append_assoc]
          exact carries_silent (silent_silence keepAlive silence) (.event first behind)

end Bodies

/-- A body arrives in pieces as it would at once. -/
theorem readBody_pieces (pieces : List Text.Bytes) :
    readBody (pieces.map .ok) = readBody [.ok pieces.flatten] := by
  have single := linesOf_pieces [] [pieces.flatten]
  rw [List.flatten_singleton] at single
  rw [readBody, readBody, linesOf_pieces, ← single]
  rfl

/--
The body of some events ends cleanly at any byte, in whatever pieces it arrives.  Frames of the
whole body are read, among them those of all lines of data that have arrived with their newlines.
There is no error behind them if and only if the last line, as far as it has arrived, carries no
data or lacks no more than its newline.  So a body that is cut off in its data is an error, and
none that may be tried again.
-/
theorem body_cut_short
    (keepAlive : KeepAlive)
    {stream : Server.EventStream}
    (legible : ∀ event ∈ stream.events, event.Legible)
    {pieces : List Text.Bytes}
    (arrived : pieces.flatten <+: Text.Utf8.encode (writeBody keepAlive stream)) :
    (readBody (pieces.map .ok)).1 <+: stream.events.map .event ++ [.done] ∧
      dataLines pieces.flatten ≤ (readBody (pieces.map .ok)).1.length ∧
      ((readBody (pieces.map .ok)).2 = none ↔
        (BeginsData (openLine pieces.flatten) →
          pieces.flatten ++ [Text.newlineByte] <+:
            Text.Utf8.encode (writeBody keepAlive stream))) ∧
      ∀ error, (readBody (pieces.map .ok)).2 = some error → error.isRetryable = false := by
  have carries := carries_linesFrom keepAlive legible 0
  have cutShort := carries.cutShort pieces.flatten.length
  rw [← writeBody_eq, ← List.prefix_iff_eq_take.mp arrived] at cutShort
  rw [readBody_pieces]
  exact ⟨cutShort.early, cutShort.complete, cutShort.sound, cutShort.fatal⟩

namespace CutBody

def ended : Event :=
  ⟨none, none, none, .textMessageEnd "é"⟩

def stream : Server.EventStream :=
  [.arrival ended, .arrival ended]

def keepAlive : KeepAlive := ⟨10, true⟩

/-- The body of both, up to the key in front of the last value of the second. -/
def cut : Text.Bytes :=
  (Text.Utf8.encode (writeBody keepAlive stream)).take 97

theorem legible_stream : ∀ event ∈ stream.events, event.Legible :=
  have legible : ended.Legible := ⟨⟨nofun, trivial⟩, rfl, by decide⟩
  List.forall_mem_cons.mpr ⟨legible, List.forall_mem_singleton.mpr legible⟩

theorem unfinished :
    ¬cut ++ [Text.newlineByte] <+: Text.Utf8.encode (writeBody keepAlive stream) := by
  decide +kernel

end CutBody

open CutBody

/-- A body that is cut behind the key of the last value of its second event. -/
theorem body_cut_short_behind_key :
    (readBody ([cut.take 60, cut.drop 60].map .ok)).1 <+: [.event ended, .event ended, .done] ∧
      1 ≤ (readBody ([cut.take 60, cut.drop 60].map .ok)).1.length ∧
      ∃ error,
        (readBody ([cut.take 60, cut.drop 60].map .ok)).2 = some error ∧
          error.isRetryable = false := by
  have whole : [cut.take 60, cut.drop 60].flatten = cut := by simp
  have arrived :
      [cut.take 60, cut.drop 60].flatten <+: Text.Utf8.encode (writeBody keepAlive stream) := by
    rw [whole]
    exact List.take_prefix 97 _
  obtain ⟨early, complete, sound, fatal⟩ := body_cut_short keepAlive legible_stream arrived
  rw [whole] at complete sound
  have counted : dataLines cut = 1 := by decide +kernel
  have begins : BeginsData (openLine cut) := ⟨by decide +kernel, by decide +kernel⟩
  refine ⟨early, counted ▸ complete, ?_⟩
  cases read : (readBody ([cut.take 60, cut.drop 60].map .ok)).2 with
  | none => exact absurd (sound.mp read begins) unfinished
  | some error => exact ⟨error, rfl, fatal error read⟩

/-- The same beginning of a body, at once: behind the first event stands an error. -/
theorem refused_when_cut_in_data :
    (∀ event ∈ stream.events, event.Legible) ∧
      cut <+: Text.Utf8.encode (writeBody keepAlive stream) ∧
      ∃ error,
        readBody [.ok cut] = ([.event ended], some error) ∧ error.isRetryable = false := by
  refine ⟨legible_stream, List.take_prefix 97 _,
    .serialization "Serialization error: Event is not valid JSON: EOF while parsing a value",
    by decide +kernel, rfl⟩

end AgentWire.Sse

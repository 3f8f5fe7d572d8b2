import AgentWire.Proofs.Client.Direct
import AgentWire.Proofs.Event
import AgentWire.Proofs.Json.EarlyEnd
import AgentWire.Proofs.Json.Writer
import AgentWire.Proofs.Text.Lines
import AgentWire.Sse.Writer

namespace AgentWire.Sse

/-!
# Written bodies are read back

The body of some events is read as these events, in whatever pieces it arrives, and
whatever lines without data stand between its own.  These are the frames that an agent
in the same process hands over for the same log.
-/

open Server (EventStream)

section Lines

/-- A text of lines, with a newline behind each. -/
def unlines (lines : List String) : String :=
  String.join (lines.map (· ++ "\n"))

theorem unlines_append (first second : List String) :
    unlines (first ++ second) = unlines first ++ unlines second := by
  rw [unlines, List.map_append, String.join_append]
  rfl

/-- Each line is written with a newline behind it. -/
theorem toList_unlines (lines : List String) :
    (unlines lines).toList = (lines.map String.toList).flatMap (· ++ ['\n']) := by
  rw [unlines, String.toList_join, List.flatMap_map, List.flatMap_map]
  simp

/-- Each line is encoded with a newline behind it. -/
theorem encode_unlines (lines : List String) :
    Text.Utf8.encode (unlines lines) =
      (lines.map Text.Utf8.encode).flatMap (· ++ [Text.newlineByte]) := by
  have newline : String.utf8EncodeChar '\n' = [Text.newlineByte] := by decide
  rw [Text.Utf8.encode_eq, toList_unlines, List.flatMap_map, List.flatMap_map,
    List.flatMap_assoc]
  simp [Text.Utf8.encode_eq, newline]

/-- The line of a body whose text is given, behind which there is a newline. -/
def lineOf (text : String) : Line :=
  ⟨Text.Utf8.encode (String.ofList (Text.closeLine '\r' text.toList.reverse)), true⟩

/-- A body that arrives in pieces has the lines of the whole. -/
theorem linesOf_pieces
    (pending : Text.Bytes)
    (pieces : List Text.Bytes) :
    linesOf pending (pieces.map .ok) =
      (Text.cutLines Text.newlineByte Text.carriageByte pending pieces.flatten).1.map (⟨·, true⟩) ++
        lastLine
          (Text.cutLines Text.newlineByte Text.carriageByte pending pieces.flatten).2 := by
  induction pieces generalizing pending with
  | nil => rfl
  | cons piece rest inductionHypothesis =>
      rw [List.flatten_cons, Text.cutLines_append, List.map_cons, linesOf, cutPiece]
      simp only [inductionHypothesis, List.map_append, List.append_assoc]

/-- A body that was written line by line is read line by line, in any pieces. -/
theorem linesOf_unlines
    {lines : List String}
    (single : ∀ line ∈ lines, '\n' ∉ line.toList)
    {pieces : List Text.Bytes}
    (whole : pieces.flatten = Text.Utf8.encode (unlines lines)) :
    linesOf [] (pieces.map .ok) = lines.map lineOf := by
  have singleBytes : ∀ line ∈ lines.map Text.Utf8.encode, Text.newlineByte ∉ line := by
    intro line member
    obtain ⟨text, inside, rfl⟩ := List.mem_map.mp member
    exact Text.Utf8.not_mem_encode rfl (by decide) (single text inside)
  have cut := Text.cutLines_lines Text.carriageByte singleBytes List.not_mem_nil
  rw [List.append_nil, ← encode_unlines, ← whole] at cut
  rw [linesOf_pieces, cut]
  simp [lastLine, lineOf, Text.closeLine_encode, Function.comp_def]

end Lines

section Padding

/-- A line that carries no data. -/
def Dataless (text : String) : Prop :=
  dataLabel.isPrefixOf text.toList = false

/-- Lines among which others without data were put. -/
inductive Padded : List String → List String → Prop where
  | nil : Padded [] []
  | keep
      (line : String)
      {lines padded : List String}
      (rest : Padded lines padded) :
      Padded (line :: lines) (line :: padded)
  | put
      {line : String}
      {lines padded : List String}
      (single : '\n' ∉ line.toList)
      (dataless : Dataless line)
      (rest : Padded lines padded) :
      Padded lines (line :: padded)

variable
  {text : String}
  {lines padded : List String}

/-- A line without data is no frame. -/
theorem frame_dataless (dataless : Dataless text) : (lineOf text).frame = .ok none := by
  have none : dataOf? (String.ofList (Text.closeLine '\r' text.toList.reverse)) = none := by
    rw [dataOf?, String.toList_ofList, if_neg]
    intro labelled
    have start := List.isPrefixOf_iff_prefix.mp labelled
    have whole := List.isPrefixOf_iff_prefix.mpr (start.trans (Text.closeLine_prefix text.toList))
    rw [Dataless, whole] at dataless
    cases dataless
  simp only [lineOf, Line.frame, Text.Utf8.decode?_encode, none]

/-- Lines without data do not matter for the frames. -/
theorem framesOf_dataless
    (dataless : ∀ line ∈ lines, Dataless line)
    (rest : List Line) :
    framesOf (lines.map lineOf ++ rest) = framesOf rest := by
  induction lines with
  | nil => rfl
  | cons line others inductionHypothesis =>
      obtain ⟨first, others⟩ := List.forall_mem_cons.mp dataless
      simp only [List.map_cons, List.cons_append, framesOf, frame_dataless first]
      exact inductionHypothesis others

/-- Lines without data make no difference. -/
theorem Padded.framesOf_eq (among : Padded lines padded) :
    framesOf (padded.map lineOf) = framesOf (lines.map lineOf) := by
  induction among with
  | nil => rfl
  | keep line rest inductionHypothesis =>
      simp only [List.map_cons, framesOf, inductionHypothesis]
  | put single dataless rest inductionHypothesis =>
      simp only [List.map_cons, framesOf, frame_dataless dataless]
      exact inductionHypothesis

/-- Padding with single lines leaves single lines. -/
theorem Padded.single
    (among : Padded lines padded)
    (single : ∀ line ∈ lines, '\n' ∉ line.toList) :
    ∀ line ∈ padded, '\n' ∉ line.toList := by
  induction among with
  | nil => exact single
  | keep line rest inductionHypothesis =>
      obtain ⟨first, others⟩ := List.forall_mem_cons.mp single
      exact List.forall_mem_cons.mpr ⟨first, inductionHypothesis others⟩
  | put own dataless rest inductionHypothesis =>
      exact List.forall_mem_cons.mpr ⟨own, inductionHypothesis single⟩

theorem Padded.refl (lines : List String) : Padded lines lines := by
  induction lines with
  | nil => exact .nil
  | cons line rest inductionHypothesis => exact .keep line inductionHypothesis

end Padding

section Data

/-- Data behind a blank is read without it, if it neither begins nor ends with one. -/
theorem trim_blank
    {chars : List Char}
    {first last : Char}
    (opens : chars.head? = some first)
    (closes : chars.getLast? = some last)
    (firstKept : Text.isBlank first = false)
    (lastKept : Text.isBlank last = false) :
    Text.trim (String.ofList (' ' :: chars)) = String.ofList chars := by
  have blank : Text.isBlank ' ' = true := by decide
  have leading : (' ' :: chars).dropWhile Text.isBlank = chars := by
    rw [List.dropWhile_cons_of_pos blank]
    cases chars with
    | nil => rfl
    | cons head rest =>
        cases opens
        rw [List.dropWhile_cons_of_neg (by simp [firstKept])]
  have trailing : chars.reverse.dropWhile Text.isBlank = chars.reverse := by
    rw [← List.head?_reverse] at closes
    cases ending : chars.reverse with
    | nil => rfl
    | cons head rest =>
        rw [ending] at closes
        cases closes
        rw [List.dropWhile_cons_of_neg (by simp [lastKept])]
  rw [Text.trim, Text.trimBy, String.toList_ofList, leading, trailing, List.reverse_reverse]

variable {event : Event}

/-- Data that is neither blank at an end nor broken by a return is read as it was written. -/
theorem frame_labelled
    {data : String}
    {first last : Char}
    (plain : '\r' ∉ data.toList)
    (opens : data.toList.head? = some first)
    (closes : data.toList.getLast? = some last)
    (firstKept : Text.isBlank first = false)
    (lastKept : Text.isBlank last = false) :
    (lineOf ("data: " ++ data)).frame = Line.frameOfData data := by
  have chars : ("data: " ++ data).toList = dataLabel ++ ' ' :: data.toList := by
    rw [String.toList_append]
    rfl
  have uncarried : '\r' ∉ ("data: " ++ data).toList := by
    rw [chars]
    simpa [dataLabel] using plain
  have labelled : dataLabel.isPrefixOf (dataLabel ++ ' ' :: data.toList) = true :=
    List.isPrefixOf_iff_prefix.mpr (List.prefix_append _ _)
  have read : dataOf? (String.ofList ("data: " ++ data).toList) = some data := by
    rw [dataOf?, String.toList_ofList, chars, if_pos labelled, List.drop_left,
      trim_blank opens closes firstKept lastKept, String.ofList_toList]
  rw [lineOf, Text.closeLine_reverse uncarried]
  simp only [Line.frame, Text.Utf8.decode?_encode, read]

/-- The mark of the end is read back. -/
theorem frame_done : (lineOf ("data: " ++ doneMark)).frame = .ok (some .done) := by
  have plain : '\r' ∉ doneMark.toList := by decide
  rw [frame_labelled plain rfl rfl (by decide) (by decide)]
  rfl

/-- A legible event is read back from its line. -/
theorem frame_event (legible : event.Legible) :
    (lineOf ("data: " ++ event.text)).frame = .ok (some (.event event)) := by
  have written : event.text.toList = event.encode.write := String.toList_ofList
  have opens : event.text.toList.head? = some '\x7b' := by
    rw [written, Event.encode_eq, Json.write]
    rfl
  have closes : event.text.toList.getLast? = some '\x7d' := by
    rw [written, Event.encode_eq, Json.getLast?_write]
  have plain : '\r' ∉ event.text.toList := by
    rw [written]
    exact (Json.plain_write _ legible.whole).not_return
  have nonempty : event.text.isEmpty = false := by
    rw [← Bool.not_eq_true, String.isEmpty_iff]
    intro same
    rw [same] at opens
    cases opens
  have other : event.text ≠ doneMark := by
    intro same
    rw [same] at opens
    cases opens
  rw [frame_labelled plain opens closes (by decide) (by decide), Line.frameOfData, nonempty]
  simp only [other, Event.ofText_text legible]
  rfl

end Data

section Written

/-- The lines of a frame; the last one is empty. -/
def Frame.lines (frame : Frame) : List String :=
  ("data: " ++ frame.data) :: frame.id.toList.map ("id: " ++ ·) ++ [""]

/-- The lines that are written in a silence. -/
def KeepAlive.lines (keepAlive : KeepAlive) (silence : Nat) : List String :=
  (List.replicate (keepAlive.count silence) [": keep-alive", ""]).flatten

/-- The lines that are written for events over time, when it has been silent for a while. -/
def linesFrom (keepAlive : KeepAlive) (silence : Nat) : List (Timed Event) → List String
  | [] => keepAlive.lines silence ++ Frame.done.lines
  | .pause milliseconds :: rest => linesFrom keepAlive (silence + milliseconds) rest
  | .arrival event :: rest =>
      keepAlive.lines silence ++ (Frame.ofEvent event).lines ++ linesFrom keepAlive 0 rest

/-- The text of a frame is its lines. -/
theorem unlines_frame (frame : Frame) : unlines frame.lines = frame.text := by
  apply String.toList_inj.mp
  rw [toList_unlines, Frame.lines, Frame.text]
  cases frame.id <;> simp

/-- The text that is written in a silence is its lines. -/
theorem unlines_silence (keepAlive : KeepAlive) (silence : Nat) :
    unlines (keepAlive.lines silence) = keepAlive.text silence := by
  rw [KeepAlive.lines, KeepAlive.text]
  induction keepAlive.count silence with
  | zero => rfl
  | succ count inductionHypothesis =>
      have sign : unlines [": keep-alive", ""] = signOfLife := by decide
      rw [List.replicate_succ, List.replicate_succ, List.flatten_cons, unlines_append,
        String.join_cons, sign, inductionHypothesis]

/-- The text that is written for a stream is its lines. -/
theorem unlines_linesFrom
    (keepAlive : KeepAlive)
    (silence : Nat)
    (stream : List (Timed Event)) :
    unlines (linesFrom keepAlive silence stream) =
      String.join (writeFrom keepAlive silence stream) := by
  induction stream generalizing silence with
  | nil =>
      rw [linesFrom, writeFrom, unlines_append, unlines_silence, unlines_frame]
      simp
  | cons next rest inductionHypothesis =>
      cases next with
      | pause milliseconds => exact inductionHypothesis _
      | arrival event =>
          rw [linesFrom, writeFrom, unlines_append, unlines_append, unlines_silence,
            unlines_frame, inductionHypothesis, String.join_cons, String.join_cons,
            String.append_assoc]

/-- No line that is written in a silence carries data. -/
theorem dataless_silence (keepAlive : KeepAlive) (silence : Nat) :
    ∀ line ∈ keepAlive.lines silence, Dataless line := by
  intro line member
  obtain ⟨sign, inside, among⟩ := List.mem_flatten.mp member
  obtain rfl := (List.mem_replicate.mp inside).2
  have each : ∀ line ∈ [": keep-alive", ""], Dataless line :=
    List.forall_mem_cons.mpr ⟨rfl, List.forall_mem_singleton.mpr rfl⟩
  exact each line among

/-- The lines of a frame behind its data carry none. -/
theorem framesOf_frame
    (frame : Frame)
    (rest : List Line) :
    framesOf (frame.lines.map lineOf ++ rest) =
      framesOf (lineOf ("data: " ++ frame.data) :: rest) := by
  have dataless : ∀ line ∈ frame.id.toList.map ("id: " ++ ·) ++ [""], Dataless line := by
    refine List.forall_mem_append.mpr ⟨?_, List.forall_mem_singleton.mpr rfl⟩
    intro line member
    obtain ⟨id, -, rfl⟩ := List.mem_map.mp member
    rw [Dataless, String.toList_append]
    rfl
  have others := framesOf_dataless dataless rest
  rw [Frame.lines, List.cons_append, List.map_cons, List.cons_append]
  simp only [framesOf, others]

/-- The lines of a body are read as its events and the mark of the end. -/
theorem framesOf_linesFrom
    (keepAlive : KeepAlive)
    {stream : EventStream}
    (legible : ∀ event ∈ stream.events, event.Legible)
    (silence : Nat) :
    framesOf ((linesFrom keepAlive silence stream).map lineOf) =
      (stream.events.map .event ++ [.done], none) := by
  induction stream generalizing silence with
  | nil =>
      rw [linesFrom, List.map_append, framesOf_dataless (dataless_silence _ _),
        ← List.append_nil (Frame.done.lines.map lineOf), framesOf_frame]
      have done : (lineOf ("data: " ++ Frame.done.data)).frame = .ok (some .done) := frame_done
      simp only [framesOf, done]
      rfl
  | cons next rest inductionHypothesis =>
      cases next with
      | pause milliseconds => exact inductionHypothesis legible _
      | arrival event =>
          obtain ⟨first, others⟩ := List.forall_mem_cons.mp legible
          have read : (lineOf ("data: " ++ (Frame.ofEvent event).data)).frame =
              .ok (some (.event event)) :=
            frame_event first
          rw [linesFrom, List.map_append, List.map_append, List.append_assoc,
            framesOf_dataless (dataless_silence _ _), framesOf_frame]
          simp only [framesOf, read, inductionHypothesis others]
          rfl

/-- No line that is written in a silence holds a control character. -/
theorem plain_silence (keepAlive : KeepAlive) (silence : Nat) :
    ∀ line ∈ keepAlive.lines silence, Json.Plain line.toList := by
  intro line member
  obtain ⟨sign, inside, among⟩ := List.mem_flatten.mp member
  obtain rfl := (List.mem_replicate.mp inside).2
  have each : ∀ line ∈ [": keep-alive", ""], Json.Plain line.toList := by
    simp [Json.Plain]
  exact each line among

/-- The lines of a frame hold no control characters if its data and its id hold none. -/
theorem plain_frame
    {frame : Frame}
    (data : Json.Plain frame.data.toList)
    (named : ∀ id ∈ frame.id.toList, Json.Plain id.toList) :
    ∀ line ∈ frame.lines, Json.Plain line.toList := by
  have labels : Json.Plain "data: ".toList ∧ Json.Plain "id: ".toList := by
    simp [Json.Plain]
  refine List.forall_mem_append.mpr ⟨List.forall_mem_cons.mpr ⟨?_, ?_⟩, ?_⟩
  · rw [String.toList_append]
    exact labels.1.append data
  · intro line member
    obtain ⟨id, inside, rfl⟩ := List.mem_map.mp member
    rw [String.toList_append]
    exact labels.2.append (named id inside)
  · exact List.forall_mem_singleton.mpr Json.Plain.nil

/-- The lines of an event without doubles hold no control characters. -/
theorem plain_ofEvent (whole : event.encode.wholeNumbers = true) :
    ∀ line ∈ (Frame.ofEvent event).lines, Json.Plain line.toList := by
  apply plain_frame
  · have written : event.text.toList = event.encode.write := String.toList_ofList
    rw [Frame.ofEvent, written]
    exact Json.plain_write _ whole
  · intro id member
    rw [Frame.ofEvent, Option.toList_map, List.mem_map] at member
    obtain ⟨number, -, rfl⟩ := member
    rw [Nat.toString_eq_repr, Nat.repr, String.toList_ofList]
    exact Json.plain_toDigits number.toNat

/-- No character that ends a line stands in one of a body. -/
theorem plain_linesFrom
    (keepAlive : KeepAlive)
    {stream : EventStream}
    (whole : ∀ event ∈ stream.events, event.encode.wholeNumbers = true)
    (silence : Nat) :
    ∀ line ∈ linesFrom keepAlive silence stream, Json.Plain line.toList := by
  induction stream generalizing silence with
  | nil =>
      have done : ∀ line ∈ Frame.done.lines, Json.Plain line.toList :=
        plain_frame (by simp [Frame.done, doneMark, Json.Plain]) nofun
      exact List.forall_mem_append.mpr ⟨plain_silence keepAlive silence, done⟩
  | cons next rest inductionHypothesis =>
      cases next with
      | pause milliseconds => exact inductionHypothesis whole _
      | arrival event =>
          obtain ⟨first, others⟩ := List.forall_mem_cons.mp whole
          exact List.forall_mem_append.mpr
            ⟨List.forall_mem_append.mpr ⟨plain_silence keepAlive silence, plain_ofEvent first⟩,
              inductionHypothesis others 0⟩

/-- A body consists of its lines. -/
theorem writeBody_eq
    (keepAlive : KeepAlive)
    (stream : EventStream) :
    writeBody keepAlive stream = unlines (linesFrom keepAlive 0 stream) :=
  (unlines_linesFrom keepAlive 0 stream).symm

/-- The body that is written for a stream has the lines that are written for it. -/
theorem lines_writeBody
    (keepAlive : KeepAlive)
    {stream : EventStream}
    (whole : ∀ event ∈ stream.events, event.encode.wholeNumbers = true) :
    Text.lines (writeBody keepAlive stream) = linesFrom keepAlive 0 stream := by
  have plain : ∀ line ∈ (linesFrom keepAlive 0 stream).map String.toList,
      '\n' ∉ line ∧ '\r' ∉ line := by
    intro line member
    obtain ⟨text, inside, rfl⟩ := List.mem_map.mp member
    have written := plain_linesFrom keepAlive whole 0 text inside
    exact ⟨written.not_newline, written.not_return⟩
  rw [writeBody_eq, Text.lines, toList_unlines, Text.linesOf_closed plain, List.map_map]
  simp [Function.comp_def]

end Written

open Client (DirectLine)

/--
The body of events over time consists of its lines.  In whatever pieces it arrives,
and whatever lines without data are put among its own, it is read as the events with
the mark of the end behind them; and a direct line hands over just these frames, for a
finished log with these events as well as for one that is followed while it grows.
-/
theorem body_read_back
    (keepAlive : KeepAlive)
    {stream : EventStream}
    (legible : ∀ event ∈ stream.events, event.Legible) :
    unlines (Text.lines (writeBody keepAlive stream)) = writeBody keepAlive stream ∧
      (∀ padded (pieces : List Text.Bytes),
        Padded (Text.lines (writeBody keepAlive stream)) padded →
        pieces.flatten = Text.Utf8.encode (unlines padded) →
        readBody (pieces.map .ok) = (stream.events.map .event ++ [.done], none)) ∧
      ∀ (line : DirectLine) number,
        line.cancelled = false →
        ((∀ log, line.archive.store.log? number = some log → log.finished = true →
            log.events = stream.events →
            (line.follow number 0 none).1 = stream.events.map .event ++ [.done]) ∧
          ∀ behind,
            (line.archive.follow number behind none).1 = stream →
            (line.follow number behind none).1 = stream.events.map .event ++ [.done]) := by
  have lines := lines_writeBody keepAlive fun event member => (legible event member).whole
  refine ⟨?written, ?read, ?handed⟩
  case written => rw [lines, writeBody_eq]
  case read =>
    intro padded pieces among whole
    have single := among.single fun line member => by
      rw [lines] at member
      exact (plain_linesFrom keepAlive (fun event inside => (legible event inside).whole) 0 line
        member).not_newline
    rw [readBody, linesOf_unlines single whole, among.framesOf_eq, lines,
      framesOf_linesFrom keepAlive legible]
  case handed =>
    intro line number waiting
    refine ⟨?_, ?_⟩
    · intro log found finished same
      rw [DirectLine.follow_finished waiting found finished, Server.RunLog.eventsAfter,
        List.drop_zero, same]
    · intro behind followed
      simp [DirectLine.follow, waiting, followed, DirectLine.framesOf]

namespace ShortBody

/-- A text with lines of its own, one of which looks like the mark of the end. -/
def spoken : Event :=
  ⟨none, none, some 1, .textMessageContent "message" "é\ndata: [DONE]\r\n"⟩

/-- A patch whose operation has its name behind its source once its members are sorted. -/
def moved : Event :=
  ⟨some 7, some (.object [("kept", .array [.null])]), none, .stateDelta (some [.move "/a" "/b"])⟩

def stream : EventStream :=
  [.arrival spoken, .pause 25, .arrival moved]

def keepAlive : KeepAlive := ⟨10, true⟩

theorem legible_spoken : spoken.Legible :=
  ⟨⟨nofun, trivial⟩, rfl, by decide⟩

theorem legible_moved : moved.Legible := by
  refine ⟨⟨?raw, ?patch⟩, rfl, by decide⟩
  case raw =>
    rintro present given
    cases given
    exact ⟨rfl, nofun⟩
  case patch =>
    rintro patch given
    cases given
    simp [PatchOperation.value?]

theorem legible_stream : ∀ event ∈ stream.events, event.Legible :=
  List.forall_mem_cons.mpr ⟨legible_spoken, List.forall_mem_singleton.mpr legible_moved⟩

/-- The bytes of the body, with a line in front that is no data. -/
def bytes : Text.Bytes :=
  Text.Utf8.encode (unlines ("event: é" :: Text.lines (writeBody keepAlive stream)))

end ShortBody

open ShortBody

/-- A body with a keep-alive and a line of its own, read in two pieces. -/
theorem body_read_back_short :
    (∀ event ∈ stream.events, event.Legible) ∧
      readBody ([bytes.take 8, bytes.drop 8].map .ok) =
        ([.event spoken, .event moved, .done], none) := by
  have among : Padded (Text.lines (writeBody keepAlive stream))
      ("event: é" :: Text.lines (writeBody keepAlive stream)) :=
    .put (by decide) rfl (.refl _)
  have whole : [bytes.take 8, bytes.drop 8].flatten = bytes := by simp
  exact ⟨legible_stream, (body_read_back keepAlive legible_stream).2.1 _ _ among whole⟩

end AgentWire.Sse

import AgentWire.Proofs.Sse.Body
import AgentWire.Sse.Session

namespace AgentWire.Sse

/-!
# Bodies that arrive over time

What a listener hears depends on the bytes of a body alone, and not on the pieces in which
they arrive or the pauses in between.  It hears what the lines say, up to the first one that
is the mark of the end or is bad, with the line that is open at the end as the last of them.
A failure to read is not heard at all: the body goes on behind it, or ends as if it were whole.
-/

open Client (ClientError)

section Lines

/-- The bytes that arrive, whatever pauses and failures there are. -/
def arrivedIn (arrivals : List (Timed Piece)) : Text.Bytes :=
  arrivals.flatMap fun
    | .arrival (.ok bytes) => bytes
    | .arrival (.error _) | .pause _ => []

/-- The line that some bytes are with a newline behind them. -/
def Line.closing (bytes : Text.Bytes) : Line :=
  ⟨Text.closeLine Text.carriageByte bytes.reverse, true⟩

/-- Whether reading goes on behind a line. -/
def Line.goesOn (line : Line) : Bool :=
  match line.frame with
  | .error _ | .ok (some .done) => false
  | .ok _ => true

/-- What is heard of a line. -/
def Line.item? (line : Line) : Option Item :=
  match line.frame with
  | .error error => some (.error error)
  | .ok frame => frame.map .ok

/-- The lines up to the first one behind which reading does not go on, with this one. -/
def linesRead : List Line → List Line
  | [] => []
  | line :: rest => if line.goesOn then line :: linesRead rest else [line]

/-- What is heard of some lines. -/
def heardOf (lines : List Line) : List Item :=
  (linesRead lines).filterMap Line.item?

/-- A line is heard, and the ones behind it if it does not end the stream. -/
theorem heardOf_cons (line : Line) (rest : List Line) :
    heardOf (line :: rest) = line.item?.toList ++ if line.goesOn then heardOf rest else [] := by
  simp only [heardOf, linesRead]
  cases line.goesOn <;>
    cases said : line.item? <;>
      simp [said]

/-- Lines are heard behind others if none of these ends the stream. -/
theorem heardOf_append (lines more : List Line) :
    heardOf (lines ++ more) =
      heardOf lines ++ if lines.all (·.goesOn) then heardOf more else [] := by
  induction lines with
  | nil =>
      rfl
  | cons line rest inductionHypothesis =>
      rw [List.cons_append, heardOf_cons, heardOf_cons, inductionHypothesis, List.all_cons]
      cases line.goesOn <;>
        simp

/-- What is heard of some lines are their frames, and the error behind them. -/
theorem heardOf_eq_framesOf (lines : List Line) :
    heardOf lines = (framesOf lines).1.map .ok ++ (framesOf lines).2.toList.map .error := by
  induction lines with
  | nil =>
      rfl
  | cons line rest inductionHypothesis =>
      rw [heardOf_cons]
      cases frame : line.frame with
      | error error =>
          simp [Line.item?, Line.goesOn, framesOf, frame]
      | ok frame? =>
          rcases frame? with _ | _ | _ <;>
            simp [Line.item?, Line.goesOn, framesOf, frame, inductionHypothesis]

/-- More bytes add the lines that they close, and change the line that is open. -/
theorem linesOf_append (pending first second : Text.Bytes) :
    linesOf pending [.ok (first ++ second)] =
      (cutPiece pending (.ok first)).1 ++
        linesOf (cutPiece pending (.ok first)).2 [.ok second] := by
  simp [linesOf, cutPiece, Text.cutLines_append]

/-- Bytes are lines with a newline behind each, and a line that is open. -/
theorem exists_lines (bytes : Text.Bytes) :
    ∃ (lines : List Text.Bytes) (last : Text.Bytes),
      (∀ line ∈ lines, Text.newlineByte ∉ line) ∧
        Text.newlineByte ∉ last ∧
        bytes = lines.flatMap (· ++ [Text.newlineByte]) ++ last := by
  induction bytes with
  | nil =>
      exact ⟨[], [], by simp⟩
  | cons byte rest inductionHypothesis =>
      obtain ⟨lines, last, single, openEnd, rfl⟩ := inductionHypothesis
      by_cases newline : byte = Text.newlineByte
      · exact ⟨[] :: lines, last, by simpa using single, openEnd, by simp [newline]⟩
      · cases lines with
        | nil =>
            exact ⟨[], byte :: last, by simp, by simp [Ne.symm newline, openEnd], by simp⟩
        | cons line others =>
            obtain ⟨first, behind⟩ := List.forall_mem_cons.mp single
            refine ⟨(byte :: line) :: others, last, ?_, openEnd, by simp⟩
            exact List.forall_mem_cons.mpr ⟨by simp [Ne.symm newline, first], behind⟩

/-- A body is cut into its lines and the one that is open. -/
theorem linesOf_lines
    {lines : List Text.Bytes}
    (single : ∀ line ∈ lines, Text.newlineByte ∉ line)
    {last : Text.Bytes}
    (openEnd : Text.newlineByte ∉ last) :
    linesOf [] [.ok (lines.flatMap (· ++ [Text.newlineByte]) ++ last)] =
      lines.map Line.closing ++ lastLine last.reverse := by
  rw [linesOf, cutPiece, Text.cutLines_lines Text.carriageByte single openEnd]
  simp [linesOf, Line.closing, Function.comp_def]

end Lines

namespace Session

/-- Nobody cancels the token of a listener, at no time and behind no item. -/
structure Undisturbed (session : Session) : Prop where
  waiting : session.clock.cancelled = false
  untimed : session.clock.cancelAt = none
  uncounted : session.appetite.cancelAfter = none

variable
  {session : Session}
  {line : Line}

/-- A session stays undisturbed when its consumer takes an item. -/
theorem Undisturbed.take (undisturbed : session.Undisturbed) :
    Undisturbed
      ⟨(session.appetite.take session.clock).2, (session.appetite.take session.clock).1⟩ := by
  obtain ⟨waiting, untimed, uncounted⟩ := undisturbed
  refine ⟨?_, ?_, uncounted⟩ <;>
    simp [Appetite.take, uncounted, waiting, untimed]

/-- A session stays undisturbed while it waits. -/
theorem Undisturbed.wait
    (undisturbed : session.Undisturbed)
    (milliseconds : Nat) :
    Undisturbed { session with clock := (session.clock.wait milliseconds).2 } := by
  obtain ⟨waiting, untimed, uncounted⟩ := undisturbed
  refine ⟨?_, ?_, uncounted⟩ <;>
    by_cases none : milliseconds = 0 <;>
      simp [Clock.wait, Clock.advance, waiting, untimed, none]

/-- Behind a line that lets it, a listener goes on. -/
theorem takeLines_of_goesOn
    (undisturbed : session.Undisturbed)
    (further : line.goesOn = true)
    (rest : List Line) :
    ∃ next : Session,
      next.Undisturbed ∧
        session.takeLines (line :: rest) =
          (line.item?.toList ++ (next.takeLines rest).1, (next.takeLines rest).2) := by
  cases frame : line.frame with
  | error error =>
      simp [Line.goesOn, frame] at further
  | ok frame? =>
      rcases frame? with _ | _ | _
      · exact ⟨session, undisturbed, by simp [takeLines, undisturbed.waiting, frame, Line.item?]⟩
      · exact ⟨_, undisturbed.take, by simp [takeLines, undisturbed.waiting, frame, Line.item?]⟩
      · simp [Line.goesOn, frame] at further

/-- Behind a line that ends the stream no line is heard. -/
theorem takeLines_of_stops
    (undisturbed : session.Undisturbed)
    (stops : line.goesOn = false)
    (rest : List Line) :
    session.takeLines (line :: rest) = (line.item?.toList, none) := by
  cases frame : line.frame with
  | error error =>
      simp [takeLines, undisturbed.waiting, frame, Line.item?]
  | ok frame? =>
      rcases frame? with _ | _ | _
      · simp [Line.goesOn, frame] at stops
      · simp [Line.goesOn, frame] at stops
      · simp [takeLines, undisturbed.waiting, frame, Line.item?]

/-- A listener hears what some lines say, and goes on if all of them let it. -/
theorem takeLines_cases (undisturbed : session.Undisturbed) (lines : List Line) :
    (lines.all (·.goesOn) = true ∧
        ∃ next, next.Undisturbed ∧ session.takeLines lines = (heardOf lines, some next)) ∨
      lines.all (·.goesOn) = false ∧ session.takeLines lines = (heardOf lines, none) := by
  induction lines generalizing session with
  | nil =>
      exact .inl ⟨rfl, session, undisturbed, rfl⟩
  | cons line rest inductionHypothesis =>
      rw [heardOf_cons, List.all_cons]
      cases further : line.goesOn with
      | false =>
          exact .inr ⟨rfl, by simp [takeLines_of_stops undisturbed further rest]⟩
      | true =>
          obtain ⟨next, still, taken⟩ := takeLines_of_goesOn undisturbed further rest
          rw [taken]
          rcases inductionHypothesis still with ⟨all, last, lastStill, others⟩ | ⟨some, others⟩
          · exact .inl ⟨all, last, lastStill, by rw [others]; rfl⟩
          · exact .inr ⟨some, by rw [others]; rfl⟩

/-- A listener hears what the lines say that all bytes together make. -/
theorem listen_eq
    (undisturbed : session.Undisturbed)
    (pending : Text.Bytes)
    (arrivals : List (Timed Piece)) :
    session.listen pending arrivals = heardOf (linesOf pending [.ok (arrivedIn arrivals)]) := by
  induction arrivals generalizing session pending with
  | nil =>
      have ended : linesOf pending [.ok (arrivedIn [])] = lastLine pending := rfl
      rw [ended]
      rcases takeLines_cases undisturbed (lastLine pending) with
        ⟨-, next, still, taken⟩ | ⟨-, taken⟩
      · simp [listen, taken, close, still.waiting]
      · simp [listen, taken]
  | cons arrival rest inductionHypothesis =>
      cases arrival with
      | pause milliseconds =>
          simp only [listen, undisturbed.waiting, Bool.false_eq_true, if_false]
          exact inductionHypothesis (undisturbed.wait milliseconds) pending
      | arrival piece =>
          cases piece with
          | error message =>
              simp only [listen, undisturbed.waiting, Bool.false_eq_true, if_false, cutPiece,
                takeLines, List.nil_append]
              exact inductionHypothesis undisturbed pending
          | ok bytes =>
              have split :
                  arrivedIn (.arrival (.ok bytes) :: rest) = bytes ++ arrivedIn rest := rfl
              rw [split, linesOf_append, heardOf_append]
              rcases takeLines_cases undisturbed (cutPiece pending (.ok bytes)).1 with
                ⟨further, next, still, taken⟩ | ⟨stops, taken⟩
              · simp [listen, undisturbed.waiting, taken, further, inductionHypothesis still]
              · simp [listen, undisturbed.waiting, taken, stops]

/-- A listener hears what is read of all bytes at once. -/
theorem listen_eq_readBody
    (undisturbed : session.Undisturbed)
    (arrivals : List (Timed Piece)) :
    session.listen [] arrivals =
      (readBody [.ok (arrivedIn arrivals)]).1.map .ok ++
        (readBody [.ok (arrivedIn arrivals)]).2.toList.map .error := by
  rw [listen_eq undisturbed, heardOf_eq_framesOf]
  rfl

/--
However a body is cut into pieces, whatever pauses and failures to read there are, a listener
whom nobody disturbs hears the same: what the closed lines say, up to the mark of the end or
a bad line, and behind them, if neither came, what the open line says.
-/
theorem heard_regardless_of_pieces
    (undisturbed : session.Undisturbed)
    (arrivals : List (Timed Piece)) :
    (∃ (lines : List Text.Bytes) (last : Text.Bytes),
      (∀ line ∈ lines, Text.newlineByte ∉ line) ∧
        Text.newlineByte ∉ last ∧
        arrivedIn arrivals = lines.flatMap (· ++ [Text.newlineByte]) ++ last ∧
        session.listen [] arrivals =
          heardOf (lines.map Line.closing ++ lastLine last.reverse)) ∧
      ∀ (other : Session) (others : List (Timed Piece)),
        other.Undisturbed →
        arrivedIn others = arrivedIn arrivals →
        other.listen [] others = session.listen [] arrivals := by
  refine ⟨?_, fun other others calm same => ?_⟩
  · obtain ⟨lines, last, single, openEnd, split⟩ := exists_lines (arrivedIn arrivals)
    refine ⟨lines, last, single, openEnd, split, ?_⟩
    rw [listen_eq undisturbed, split, linesOf_lines single openEnd]
  · rw [listen_eq calm, listen_eq undisturbed, same]

end Session

namespace BrokenOff

def ended : Event :=
  EventBody.toEvent (.textMessageEnd "é")

/-- The lines that are closed, the second of them with a return. -/
def lines : List Text.Bytes :=
  [": keep-alive", "\r"].map Text.Utf8.encode

/-- The line that is open. -/
def last : Text.Bytes :=
  Text.Utf8.encode ("data: " ++ ended.text)

theorem single : ∀ line ∈ lines, Text.newlineByte ∉ line := by
  decide +kernel

theorem openEnd : Text.newlineByte ∉ last := by
  decide +kernel

def body : Text.Bytes :=
  lines.flatMap (· ++ [Text.newlineByte]) ++ last

/-- The body in pieces, cut within a word and within a character, with failures. -/
def arrivals : List (Timed Piece) :=
  [.arrival (.ok (body.take 9)),
   .arrival (.error "reset"),
   .pause 20,
   .arrival (.ok ((body.drop 9).take (body.length - 12))),
   .arrival (.ok []),
   .arrival (.ok (body.drop (body.length - 3))),
   .arrival (.error "reset")]

theorem undisturbed : ({} : Session).Undisturbed :=
  ⟨rfl, rfl, rfl⟩

theorem arrivedIn_arrivals : arrivedIn arrivals = body := by
  decide +kernel

theorem heardOf_body : heardOf (linesOf [] [.ok body]) = [.ok (.event ended)] := by
  decide +kernel

end BrokenOff

open BrokenOff

/-- A body in pieces, with failures in between and behind it. -/
theorem heard_regardless_of_pieces_broken_off :
    ({} : Session).Undisturbed ∧
      arrivedIn arrivals = body ∧
      ({} : Session).listen [] arrivals = [.ok (.event ended)] := by
  have whole : arrivedIn [.arrival (.ok body)] = body := List.append_nil body
  have alike :=
    (Session.heard_regardless_of_pieces undisturbed [.arrival (.ok body)]).2 {} arrivals undisturbed
      (arrivedIn_arrivals.trans whole.symm)
  refine ⟨undisturbed, arrivedIn_arrivals, ?_⟩
  rw [alike, Session.listen_eq undisturbed, whole, heardOf_body]

/--
What would be heard of a body that breaks off behind some lines if the failure were heard,
and not the line that is open.
-/
def heardOfBrokenOff (lines : List Line) (message : String) : List Item :=
  heardOf lines ++ if lines.all (·.goesOn) then [.error (.connection message)] else []

/-- Behind two closed lines, a failure is not heard, and the line that is open is. -/
theorem not_failure_heard :
    ¬∀ (pieces lines : List Text.Bytes) (last : Text.Bytes) (message : String),
        (∀ line ∈ lines, Text.newlineByte ∉ line) →
        Text.newlineByte ∉ last →
        pieces.flatten = lines.flatMap (· ++ [Text.newlineByte]) ++ last →
        ({} : Session).listen []
            (pieces.map (.arrival <| .ok ·) ++ [.arrival (.error message)]) =
          heardOfBrokenOff (lines.map Line.closing) message := by
  intro failureHeard
  have heard := failureHeard [body] lines last "reset" single openEnd (by simp [body])
  have unheard :
      ({} : Session).listen [] [.arrival (.ok body), .arrival (.error "reset")] =
        [.ok (.event ended)] := by
    have whole : arrivedIn [.arrival (.ok body), .arrival (.error "reset")] = body :=
      List.append_nil body
    rw [Session.listen_eq undisturbed, whole, heardOf_body]
  have failure :
      heardOfBrokenOff (lines.map Line.closing) "reset" = [.error (.connection "reset")] := by
    decide +kernel
  cases unheard.symm.trans (heard.trans failure)

end AgentWire.Sse

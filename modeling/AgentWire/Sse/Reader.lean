import AgentWire.Client.Error
import AgentWire.Client.Transport
import AgentWire.Event.Decoder
import AgentWire.Text.Blank
import AgentWire.Text.Lines

namespace AgentWire.Sse

/-!
# Reading a body of frames

The bytes of a body arrive in pieces that need not end where lines do.  A line
that starts with `data:` carries an event or the mark of the end; all others are
passed over.  Nothing behind the mark or behind a bad line is read.  When reading
fails, it is simply tried again, so a failure shows only as an early end.
-/

open Client (ClientError Frame)

/-- What starts a line with data. -/
def dataLabel : List Char := ['d', 'a', 't', 'a', ':']

/-- The mark of the end. -/
def doneMark : String := "[DONE]"

/-- The data of a line, without the blanks around it. -/
def dataOf? (line : String) : Option String :=
  if dataLabel.isPrefixOf line.toList then
    some (Text.trim (String.ofList (line.toList.drop dataLabel.length)))
  else
    none

/-- A line of a body; the last one may be open, without a newline behind it. -/
structure Line where
  bytes : Text.Bytes
  closed : Bool
  deriving Repr, DecidableEq

namespace Line

/-- The error of a line that is no text. -/
def textError (line : Line) : ClientError :=
  let bytes := if line.closed then line.bytes ++ [Text.newlineByte] else line.bytes
  .malformed "data" (((Text.Utf8.fault? bytes).map Text.Utf8.Fault.message).getD "")

/-- The frame that some data stands for. -/
def frameOfData (data : String) : Except ClientError (Option Frame) :=
  if data.isEmpty then
    .ok none
  else if data = doneMark then
    .ok (some .done)
  else
    match Event.ofText data with
    | .ok event => .ok (some (.event event))
    | .error problem => .error (.ofProblem problem)

/-- The frame of a line; lines without data have none. -/
def frame (line : Line) : Except ClientError (Option Frame) :=
  match Text.Utf8.decode? line.bytes with
  | none => .error line.textError
  | some text =>
      match dataOf? text with
      | none => .ok none
      | some data => frameOfData data

end Line

/-- A piece of a body, or the message of a failure to read it. -/
abbrev Piece := Except String Text.Bytes

/--
The lines that a piece closes behind an open line, and the line that is open then.
Open lines are given in reverse.
-/
def cutPiece (pending : Text.Bytes) : Piece → List Line × Text.Bytes
  | .error _ => ([], pending)
  | .ok bytes =>
      let (lines, pending) :=
        Text.cutLines Text.newlineByte Text.carriageByte pending bytes
      (lines.map (⟨·, true⟩), pending)

/-- The line that is open when a body ends. -/
def lastLine (pending : Text.Bytes) : List Line :=
  if pending.isEmpty then [] else [⟨pending.reverse, false⟩]

/-- The lines of a body that arrives in pieces, behind an open line. -/
def linesOf (pending : Text.Bytes) : List Piece → List Line
  | [] => lastLine pending
  | piece :: rest =>
      let (lines, pending) := cutPiece pending piece
      lines ++ linesOf pending rest

/-- The frames of some lines, and the error behind them. -/
def framesOf : List Line → List Frame × Option ClientError
  | [] => ([], none)
  | line :: rest =>
      match line.frame with
      | .error error => ([], some error)
      | .ok none => framesOf rest
      | .ok (some .done) => ([.done], none)
      | .ok (some frame) =>
          let (frames, error) := framesOf rest
          (frame :: frames, error)

/-- The frames of a whole body that arrives in pieces, and the error behind them. -/
def readBody (pieces : List Piece) : List Frame × Option ClientError :=
  framesOf (linesOf [] pieces)

end AgentWire.Sse

import AgentWire.Sse.Reader

namespace AgentWire.Sse

/-!
# A body that is still arriving

A feed keeps the lines that are complete and not read yet, and the line that is open.
-/

open Client (ClientError Frame)

/-- The first frame of some lines, or the first error, and the lines behind it. -/
def nextFrame : List Line → Option (Except ClientError Frame) × List Line
  | [] => (none, [])
  | line :: rest =>
      match line.frame with
      | .error error => (some (.error error), rest)
      | .ok (some frame) => (some (.ok frame), rest)
      | .ok none => nextFrame rest

/-- What has arrived of a body and was not read yet. -/
structure Feed where
  lines : List Line := []
  /-- The open line, in reverse. -/
  pending : Text.Bytes := []
  deriving Repr, DecidableEq

namespace Feed

/-- Take a piece of the body. -/
def take (feed : Feed) (piece : Piece) : Feed :=
  let (lines, pending) := cutPiece feed.pending piece
  { lines := feed.lines ++ lines, pending }

/-- Take the end of the body. -/
def close (feed : Feed) : Feed where
  lines := feed.lines ++ lastLine feed.pending

/-- Read a frame, if a line that is complete has one. -/
def next (feed : Feed) : Option (Except ClientError Frame) × Feed :=
  let (frame, lines) := nextFrame feed.lines
  (frame, { feed with lines })

end Feed

end AgentWire.Sse

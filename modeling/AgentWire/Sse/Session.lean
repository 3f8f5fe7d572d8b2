import AgentWire.Clock
import AgentWire.Sse.Reader

namespace AgentWire.Sse

/-!
# Listening to a body over time

Pieces of a body arrive one after the other, with pauses in between.  A listener
takes the frames as they are complete, until the body ends or it is cancelled.
-/

open Client (ClientError Frame)

/-- A frame, or the error that ends a body. -/
abbrev Item := Except ClientError Frame

/-- A listener with its clock. -/
structure Session where
  clock : Clock := {}
  appetite : Appetite := {}
  deriving Repr, DecidableEq

namespace Session

/-- Take the frames of some lines; there is no session left once it is over. -/
def takeLines (session : Session) : List Line → List Item × Option Session
  | [] => ([], some session)
  | line :: rest =>
      if session.clock.cancelled then
        ([.error .cancelled], none)
      else
        match line.frame with
        | .error error => ([.error error], none)
        | .ok none => session.takeLines rest
        | .ok (some frame) =>
            if frame = .done then
              ([.ok frame], none)
            else
              let (appetite, clock) := session.appetite.take session.clock
              let (items, left) := takeLines ⟨clock, appetite⟩ rest
              (.ok frame :: items, left)

/-- Notice at the end whether the token is cancelled. -/
def close (session : Session) : List Item :=
  if session.clock.cancelled then [.error .cancelled] else []

/-- Listen to pieces that follow an open line. -/
def listen (session : Session) (pending : Text.Bytes) : List (Timed Piece) → List Item
  | [] =>
      match session.takeLines (lastLine pending) with
      | (items, some session) => items ++ session.close
      | (items, none) => items
  | next :: rest =>
      if session.clock.cancelled then
        [.error .cancelled]
      else
        match next with
        | .pause milliseconds =>
            let (_, clock) := session.clock.wait milliseconds
            listen { session with clock } pending rest
        | .arrival piece =>
            let (lines, pending) := cutPiece pending piece
            match session.takeLines lines with
            | (items, some session) => items ++ listen session pending rest
            | (items, none) => items

end Session

end AgentWire.Sse

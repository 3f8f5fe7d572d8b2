import AgentWire.Clock
import AgentWire.Event.Basic
import AgentWire.Sse.Reader

namespace AgentWire.Sse

/-!
# Writing a body of frames

Every event is one frame with a line of data and, if the event is numbered, a line
with its number.  A frame with the mark of the end stands last.  In silence a
comment is written from time to time.
-/

/-- A frame of a body. -/
structure Frame where
  data : String
  id : Option String := none
  deriving Repr, DecidableEq

namespace Frame

/-- The frame of an event. -/
def ofEvent (event : Event) : Frame where
  data := event.text
  id := event.sequenceNumber.map fun number => toString number.toNat

/-- The frame that stands last. -/
def done : Frame where
  data := doneMark

/-- A frame as it is written. -/
def text (frame : Frame) : String :=
  "data: " ++ frame.data ++ "\n"
    ++ (match frame.id with
        | none => ""
        | some id => "id: " ++ id ++ "\n")
    ++ "\n"

end Frame

/-- The comment that is a sign of life. -/
def signOfLife : String := ": keep-alive\n\n"

/-- When signs of life are written. -/
structure KeepAlive where
  /-- How long a body is silent before a sign of life. -/
  interval : Nat
  /-- Whether a sign of life stands before an event that is due at the same time. -/
  first : Bool
  deriving Repr, DecidableEq

namespace KeepAlive

/-- How many signs of life there are in a silence. -/
def count (keepAlive : KeepAlive) (silence : Nat) : Nat :=
  if keepAlive.first then
    silence / keepAlive.interval
  else
    (silence - 1) / keepAlive.interval

/-- What is written in a silence. -/
def text (keepAlive : KeepAlive) (silence : Nat) : String :=
  String.join (List.replicate (keepAlive.count silence) signOfLife)

end KeepAlive

/-- What is written for events over time, when it has been silent for a while. -/
def writeFrom (keepAlive : KeepAlive) (silence : Nat) : List (Timed Event) → List String
  | [] => [keepAlive.text silence, Frame.done.text]
  | .pause milliseconds :: rest => writeFrom keepAlive (silence + milliseconds) rest
  | .arrival event :: rest =>
      keepAlive.text silence :: (Frame.ofEvent event).text :: writeFrom keepAlive 0 rest

/-- The body of events over time. -/
def writeBody (keepAlive : KeepAlive) (stream : List (Timed Event)) : String :=
  String.join (writeFrom keepAlive 0 stream)

end AgentWire.Sse

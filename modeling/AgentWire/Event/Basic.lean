import AgentWire.Patch
import AgentWire.Problem

namespace AgentWire

/-!
# Events

An event has a common head and one of twelve bodies.  `Event.encode` gives its
wire form, with the members in the order of their declaration.
-/

/-- The twelve kinds of event. -/
inductive EventKind where
  | runStarted
  | runFinished
  | runError
  | textMessageStart
  | textMessageContent
  | textMessageEnd
  | toolCallStart
  | toolCallArgs
  | toolCallEnd
  | toolCallResult
  | stateSnapshot
  | stateDelta
  deriving Repr, DecidableEq

namespace EventKind

/-- All kinds, in the order in which messages list them. -/
def all : List EventKind :=
  [.runStarted, .runFinished, .runError, .textMessageStart, .textMessageContent,
   .textMessageEnd, .toolCallStart, .toolCallArgs, .toolCallEnd, .toolCallResult,
   .stateSnapshot, .stateDelta]

/-- The name of a kind on the wire. -/
def name : EventKind → String
  | .runStarted => "RUN_STARTED"
  | .runFinished => "RUN_FINISHED"
  | .runError => "RUN_ERROR"
  | .textMessageStart => "TEXT_MESSAGE_START"
  | .textMessageContent => "TEXT_MESSAGE_CONTENT"
  | .textMessageEnd => "TEXT_MESSAGE_END"
  | .toolCallStart => "TOOL_CALL_START"
  | .toolCallArgs => "TOOL_CALL_ARGS"
  | .toolCallEnd => "TOOL_CALL_END"
  | .toolCallResult => "TOOL_CALL_RESULT"
  | .stateSnapshot => "STATE_SNAPSHOT"
  | .stateDelta => "STATE_DELTA"

/-- The names of all kinds. -/
def names : List String :=
  all.map name

/-- The kind of a name. -/
def ofName? (text : String) : Option EventKind :=
  all.find? (·.name == text)

/-- Whether events of this kind end a run. -/
def isTerminal : EventKind → Bool
  | .runFinished | .runError => true
  | _ => false

end EventKind

/-- What an event says. -/
inductive EventBody where
  | runStarted (threadId runId : String)
  | runFinished (threadId runId : String) (result : Option Json)
  | runError (message : String) (code : Option String)
  | textMessageStart (messageId role : String)
  | textMessageContent (messageId delta : String)
  | textMessageEnd (messageId : String)
  | toolCallStart (callId name : String) (parentId : Option String)
  | toolCallArgs (callId delta : String)
  | toolCallEnd (callId : String)
  | toolCallResult (messageId callId content : String) (role : Option String)
  | stateSnapshot (snapshot : Option Json)
  | stateDelta (delta : Option Patch)
  deriving Repr, DecidableEq

/-- An event of a run. -/
structure Event where
  timestamp : Option Int64
  rawEvent : Option Json
  sequenceNumber : Option UInt64
  body : EventBody
  deriving Repr, DecidableEq

namespace EventBody

/-- The kind of an event with this body. -/
def kind : EventBody → EventKind
  | .runStarted .. => .runStarted
  | .runFinished .. => .runFinished
  | .runError .. => .runError
  | .textMessageStart .. => .textMessageStart
  | .textMessageContent .. => .textMessageContent
  | .textMessageEnd .. => .textMessageEnd
  | .toolCallStart .. => .toolCallStart
  | .toolCallArgs .. => .toolCallArgs
  | .toolCallEnd .. => .toolCallEnd
  | .toolCallResult .. => .toolCallResult
  | .stateSnapshot .. => .stateSnapshot
  | .stateDelta .. => .stateDelta

/-- An event with this body and nothing in its head. -/
def toEvent (body : EventBody) : Event :=
  ⟨none, none, none, body⟩

end EventBody

namespace Event

/-- The kind of an event. -/
def kind (event : Event) : EventKind :=
  event.body.kind

/-- Whether an event ends its run. -/
def isTerminal (event : Event) : Bool :=
  event.kind.isTerminal

/-- The event with a number in its run's log. -/
def numbered (event : Event) (sequenceNumber : UInt64) : Event :=
  { event with sequenceNumber := some sequenceNumber }

/-- The members of a body. -/
def bodyMembers : EventBody → List (String × Json)
  | .runStarted threadId runId =>
      [("threadId", .string threadId), ("runId", .string runId)]
  | .runFinished threadId runId result =>
      [("threadId", .string threadId), ("runId", .string runId)]
        ++ Json.member? "result" result (·)
  | .runError message code =>
      ("message", .string message) :: Json.member? "code" code .string
  | .textMessageStart messageId role =>
      [("messageId", .string messageId), ("role", .string role)]
  | .textMessageContent messageId delta =>
      [("messageId", .string messageId), ("delta", .string delta)]
  | .textMessageEnd messageId => [("messageId", .string messageId)]
  | .toolCallStart callId name parentId =>
      [("toolCallId", .string callId), ("toolCallName", .string name)]
        ++ Json.member? "parentMessageId" parentId .string
  | .toolCallArgs callId delta =>
      [("toolCallId", .string callId), ("delta", .string delta)]
  | .toolCallEnd callId => [("toolCallId", .string callId)]
  | .toolCallResult messageId callId content role =>
      [("messageId", .string messageId), ("toolCallId", .string callId),
       ("content", .string content)]
        ++ Json.member? "role" role .string
  | .stateSnapshot snapshot => [("snapshot", Json.orNull snapshot (·))]
  | .stateDelta delta => [("delta", Json.orNull delta Patch.encode)]

/-- The wire form of an event. -/
def encode (event : Event) : Json :=
  .object <|
    ("type", .string event.kind.name)
      :: Json.member? "timestamp" event.timestamp .signed
      ++ Json.member? "rawEvent" event.rawEvent (·)
      ++ Json.member? "sequenceNumber" event.sequenceNumber .word
      ++ bodyMembers event.body

/-- The text of an event on the wire. -/
def text (event : Event) : String :=
  event.encode.text

end Event

end AgentWire

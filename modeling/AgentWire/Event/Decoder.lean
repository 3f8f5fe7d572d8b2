import AgentWire.Event.Basic

namespace AgentWire

/-!
# Decoding events

There are two decoders.  `Event.ofText` reads a whole document first and then
the event in it, so members are met sorted by name.  `Event.decode` walks the
text itself and sets the members aside until it knows the kind.
-/

namespace EventKind

open Json (Decoder Field Schema)

/-- The words that name events of a kind in a message. -/
def title : EventKind → String
  | .runStarted => "struct RunStartedEvent"
  | .runFinished => "struct RunFinishedEvent"
  | .runError => "struct RunErrorEvent"
  | .textMessageStart => "struct TextMessageStartEvent"
  | .textMessageContent => "struct TextMessageContentEvent"
  | .textMessageEnd => "struct TextMessageEndEvent"
  | .toolCallStart => "struct ToolCallStartEvent"
  | .toolCallArgs => "struct ToolCallArgsEvent"
  | .toolCallEnd => "struct ToolCallEndEvent"
  | .toolCallResult => "struct ToolCallResultEvent"
  | .stateSnapshot => "struct StateSnapshotEvent"
  | .stateDelta => "struct StateDeltaEvent"

/-- The members of a head. -/
def headFields : List Field :=
  [.nullable "timestamp" Decoder.signed,
   .nullable "rawEvent" Decoder.json,
   .nullable "sequenceNumber" Decoder.word]

/-- The members of a body. -/
def bodyFields : EventKind → List Field
  | .runStarted =>
      [.required "threadId" Decoder.string, .required "runId" Decoder.string]
  | .runFinished =>
      [.required "threadId" Decoder.string, .required "runId" Decoder.string,
       .omittable "result" Decoder.json]
  | .runError =>
      [.required "message" Decoder.string, .omittable "code" Decoder.string]
  | .textMessageStart =>
      [.required "messageId" Decoder.string, .required "role" Decoder.string]
  | .textMessageContent =>
      [.required "messageId" Decoder.string, .required "delta" Decoder.string]
  | .textMessageEnd => [.required "messageId" Decoder.string]
  | .toolCallStart =>
      [.required "toolCallId" Decoder.string, .required "toolCallName" Decoder.string,
       .omittable "parentMessageId" Decoder.string]
  | .toolCallArgs =>
      [.required "toolCallId" Decoder.string, .required "delta" Decoder.string]
  | .toolCallEnd => [.required "toolCallId" Decoder.string]
  | .toolCallResult =>
      [.required "messageId" Decoder.string, .required "toolCallId" Decoder.string,
       .required "content" Decoder.string, .omittable "role" Decoder.string]
  | .stateSnapshot => [.omittable "snapshot" Decoder.json]
  | .stateDelta => [.omittable "delta" Patch.decode]

/-- The members of an event. -/
def schema (kind : EventKind) : Schema :=
  ⟨kind.title, headFields ++ kind.bodyFields⟩

end EventKind

namespace Event

open Json (Decoder Draft Parts Reading)

/-- The body in the parts of an event. -/
def bodyOf (kind : EventKind) (parts : Parts) : Reading EventBody := do
  match kind with
  | .runStarted =>
      let threadId ← parts.required "threadId" Decoder.string
      let runId ← parts.required "runId" Decoder.string
      .ok (.runStarted threadId runId)
  | .runFinished =>
      let threadId ← parts.required "threadId" Decoder.string
      let runId ← parts.required "runId" Decoder.string
      let result ← parts.optional "result" Decoder.json
      .ok (.runFinished threadId runId result)
  | .runError =>
      let message ← parts.required "message" Decoder.string
      let code ← parts.optional "code" Decoder.string
      .ok (.runError message code)
  | .textMessageStart =>
      let messageId ← parts.required "messageId" Decoder.string
      let role ← parts.required "role" Decoder.string
      .ok (.textMessageStart messageId role)
  | .textMessageContent =>
      let messageId ← parts.required "messageId" Decoder.string
      let delta ← parts.required "delta" Decoder.string
      .ok (.textMessageContent messageId delta)
  | .textMessageEnd =>
      let messageId ← parts.required "messageId" Decoder.string
      .ok (.textMessageEnd messageId)
  | .toolCallStart =>
      let callId ← parts.required "toolCallId" Decoder.string
      let name ← parts.required "toolCallName" Decoder.string
      let parentId ← parts.optional "parentMessageId" Decoder.string
      .ok (.toolCallStart callId name parentId)
  | .toolCallArgs =>
      let callId ← parts.required "toolCallId" Decoder.string
      let delta ← parts.required "delta" Decoder.string
      .ok (.toolCallArgs callId delta)
  | .toolCallEnd =>
      let callId ← parts.required "toolCallId" Decoder.string
      .ok (.toolCallEnd callId)
  | .toolCallResult =>
      let messageId ← parts.required "messageId" Decoder.string
      let callId ← parts.required "toolCallId" Decoder.string
      let content ← parts.required "content" Decoder.string
      let role ← parts.optional "role" Decoder.string
      .ok (.toolCallResult messageId callId content role)
  | .stateSnapshot =>
      let snapshot ← parts.optional "snapshot" Decoder.json
      .ok (.stateSnapshot snapshot)
  | .stateDelta =>
      let delta ← parts.optional "delta" Patch.decode
      .ok (.stateDelta delta)

/-- The event in its parts. -/
def ofParts (kind : EventKind) (parts : Parts) : Reading Event := do
  let timestamp ← parts.optional "timestamp" Decoder.signed
  let rawEvent ← parts.optional "rawEvent" Decoder.json
  let sequenceNumber ← parts.optional "sequenceNumber" Decoder.word
  let body ← bodyOf kind parts
  .ok ⟨timestamp, rawEvent, sequenceNumber, body⟩

/-- Decode an event whose kind is known. -/
def decodeAs (kind : EventKind) : Decoder Event := fun route draft => do
  let parts ← kind.schema.parts route draft
  ofParts kind parts

/-- Decode an event by its tag. -/
def decode : Decoder Event := fun route draft => do
  let (name, rest) ← Decoder.tagged "Event" "type" EventKind.names route draft
  match EventKind.ofName? name with
  | some kind => (decodeAs kind .buffer rest).whole
  | none => .mismatched (.unknownVariant name EventKind.names)

/-- The event in a document. -/
def ofDocument (document : Json) : Except Problem Event :=
  match (document.get? "type").bind Json.asString? with
  | none => .error (.missingField "type")
  | some name =>
      match EventKind.ofName? name with
      | none => .error (.invalidEventType name)
      | some kind =>
          match (decodeAs kind).tree document with
          | .ok event => .ok event
          | .error refusal =>
              .error <| .malformed kind.name <|
                "Failed to parse " ++ kind.name ++ " event: " ++ refusal.message

/-- The event in a text. -/
def ofText (text : String) : Except Problem Event :=
  match Decoder.json.text text with
  | .ok document => ofDocument document
  | .error refusal =>
      .error (.serialization ("Event is not valid JSON: " ++ refusal.message))

end Event

end AgentWire

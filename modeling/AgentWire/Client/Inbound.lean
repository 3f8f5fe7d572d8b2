import AgentWire.Chat.State
import AgentWire.Client.Error
import AgentWire.Event.Decoder
import AgentWire.IdSupply
import AgentWire.Text.Blank

namespace AgentWire.Client

/-!
# From events to updates

A machine takes the events of a run one at a time.  An event that fits gives at
most one update; one that does not is refused and changes nothing.
-/

open Chat (ContentItem Moment Payload Update)

/-- What is open in a run: nothing, a text message, or a tool call. -/
inductive Phase where
  | idle
  | text (messageId : String) (role : Role)
  | call (callId name : String) (parentId : Option String) (arguments : String)
  deriving Repr, DecidableEq

namespace Phase

/-- What is open, in words. -/
def describe : Phase → String
  | .idle => "no message is open"
  | .text .. => "a text message is open"
  | .call .. => "a tool call is open"

end Phase

/-- The machine that takes the events of a run. -/
structure Inbound where
  phase : Phase := .idle
  responseId : Option String := none
  conversationId : Option String := none
  deriving Repr, DecidableEq

/-- The arguments of a tool call, none if the text is blank or `null`. -/
def parseArguments (text : String) : Except ClientError (Option (Dictionary Json)) :=
  if Text.isBlankText text then
    .ok none
  else
    match Json.Decoder.json.text text with
    | .error refusal =>
        .error (.malformed "arguments" ("invalid JSON: " ++ refusal.message))
    | .ok .null => .ok none
    | .ok (.object members) => .ok (some members)
    | .ok other =>
        .error (.malformed "arguments" ("expected a JSON object, got " ++ other.text))

/-- The result of a tool call: a document, or the text itself if it is none. -/
def parseResult (content : String) : Json :=
  if content.isEmpty then
    .null
  else
    match Json.Decoder.json.text content with
    | .ok document => document
    | .error _ => .string content

/-- The role of a text message; no name means the assistant. -/
def messageRole (name : String) : Except ClientError Role :=
  if name.isEmpty then
    .ok .assistant
  else
    match Role.ofName? name with
    | some role => .ok role
    | none => .error (.malformed "role" ("unknown role '" ++ name ++ "'"))

namespace Inbound

/-- An update about the current run. -/
def update
    (machine : Inbound)
    (event : Event)
    (role : Role)
    (contents : List ContentItem) :
    Update where
  role := role
  contents := contents
  responseId := machine.responseId
  conversationId := machine.conversationId
  createdAt := some (Moment.ofTimestamp event.timestamp)

/-- The refusal of an event that fits nothing that is open. -/
def unexpected {α : Type} (machine : Inbound) (event : Event) : Except ClientError α :=
  .error (.protocol (.unexpectedEvent event.kind.name machine.phase.describe))

/-- The refusal of an event because of a violation. -/
def violated {α : Type} (violation : Violation) : Except ClientError α :=
  .error (.protocol violation)

/-- A text message starts. -/
def startText
    (machine : Inbound)
    (messageId role : String) :
    Except ClientError (Inbound × Option Update) :=
  match machine.phase with
  | .text opened _ => violated (.overlappingTextMessage opened messageId)
  | .call opened _ _ _ => violated (.textMessageDuringToolCall opened messageId)
  | .idle => do
      let role ← messageRole role
      .ok ({ machine with phase := .text messageId role }, none)

/-- A piece of a text message. -/
def addText
    (machine : Inbound)
    (event : Event)
    (messageId delta : String) :
    Except ClientError (Inbound × Option Update) :=
  match machine.phase with
  | .text opened role =>
      if opened = messageId then
        let update := machine.update event role [.text delta]
        .ok (machine, some { update with messageId := some opened })
      else
        violated (.messageIdMismatch event.kind.name opened messageId)
  | _ => machine.unexpected event

/-- A text message ends. -/
def endText
    (machine : Inbound)
    (event : Event)
    (messageId : String) :
    Except ClientError (Inbound × Option Update) :=
  match machine.phase with
  | .text opened _ =>
      if opened = messageId then
        .ok ({ machine with phase := .idle }, none)
      else
        violated (.messageIdMismatch event.kind.name opened messageId)
  | _ => machine.unexpected event

/-- A tool call starts. -/
def startCall
    (machine : Inbound)
    (callId name : String)
    (parentId : Option String) :
    Except ClientError (Inbound × Option Update) :=
  match machine.phase with
  | .idle => .ok ({ machine with phase := .call callId name parentId "" }, none)
  | .call opened _ _ _ => violated (.overlappingToolCall opened callId)
  | .text opened _ => violated (.toolCallDuringTextMessage opened callId)

/-- A piece of the arguments of a tool call. -/
def addArguments
    (machine : Inbound)
    (event : Event)
    (callId delta : String) :
    Except ClientError (Inbound × Option Update) :=
  match machine.phase with
  | .call opened name parentId arguments =>
      if opened = callId then
        .ok ({ machine with phase := .call opened name parentId (arguments ++ delta) }, none)
      else
        violated (.toolCallIdMismatch event.kind.name opened callId)
  | _ => machine.unexpected event

/-- A tool call ends: its arguments are complete. -/
def endCall
    (machine : Inbound)
    (event : Event)
    (callId : String) :
    Except ClientError (Inbound × Option Update) :=
  match machine.phase with
  | .call opened name parentId arguments =>
      if opened = callId then do
        let parsed ← parseArguments arguments
        let arguments := parsed.map fun members =>
          members.map fun (key, value) => (key, Payload.json value)
        let update := machine.update event .assistant [.call ⟨callId, name, arguments⟩]
        .ok ({ machine with phase := .idle }, some { update with messageId := parentId })
      else
        violated (.toolCallIdMismatch event.kind.name opened callId)
  | _ => machine.unexpected event

/-- Take one event. -/
def apply
    (machine : Inbound)
    (event : Event) :
    Except ClientError (Inbound × Option Update) :=
  match event.body with
  | .runStarted threadId runId =>
      if machine.phase = .idle then
        let next : Inbound := ⟨.idle, nonempty? runId, nonempty? threadId⟩
        .ok (next, some (next.update event .assistant []))
      else
        machine.unexpected event
  | .runFinished threadId runId result =>
      if machine.phase = .idle then
        let next : Inbound :=
          ⟨.idle, (nonempty? runId).or machine.responseId,
           (nonempty? threadId).or machine.conversationId⟩
        let contents := result.toList.map fun value => ContentItem.text value.text
        .ok (next, some (next.update event .assistant contents))
      else
        machine.unexpected event
  | .runError message code =>
      let next := { machine with phase := .idle }
      .ok (next, some (next.update event .assistant [.error message code]))
  | .textMessageStart messageId role => machine.startText messageId role
  | .textMessageContent messageId delta => machine.addText event messageId delta
  | .textMessageEnd messageId => machine.endText event messageId
  | .toolCallStart callId name parentId => machine.startCall callId name parentId
  | .toolCallArgs callId delta => machine.addArguments event callId delta
  | .toolCallEnd callId => machine.endCall event callId
  | .toolCallResult messageId callId content _ =>
      let update := machine.update event .tool
        [.result ⟨callId, .json (parseResult content)⟩]
      .ok (machine, some { update with messageId := nonempty? messageId })
  | .stateSnapshot none => .ok (machine, none)
  | .stateSnapshot (some .null) => .ok (machine, none)
  | .stateSnapshot (some document) =>
      let update := machine.update event .assistant [Chat.encodeSnapshot document]
      .ok (machine, some
        { update with properties := [(Chat.snapshotFlag, .bool true)] })
  | .stateDelta none => .ok (machine, none)
  | .stateDelta (some patch) =>
      let update := machine.update event .assistant [Chat.encodeDelta patch]
      .ok (machine, some
        { update with properties := [(Chat.deltaFlag, .bool true)] })

/-- Take some events; refused ones are skipped.  The updates are in order. -/
def run (machine : Inbound) : List Event → Inbound × List Update
  | [] => (machine, [])
  | event :: rest =>
      match machine.apply event with
      | .error _ => machine.run rest
      | .ok (next, update) =>
          let (last, updates) := next.run rest
          (last, update.toList ++ updates)

end Inbound

end AgentWire.Client

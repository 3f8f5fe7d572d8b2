import AgentWire.Chat.Registry
import AgentWire.Chat.State
import AgentWire.Client.Error
import AgentWire.IdSupply
import AgentWire.RunInput

namespace AgentWire.Client

/-!
# From chat messages to a run request

A last message that holds nothing but a state document becomes the state of the
request; every other message becomes one wire message of the same role.
-/

open Chat (ChatMessage ContentItem FunctionCall FunctionResult Registry)

/-- What a caller may set for one call. -/
structure Options where
  conversationId : Option String := none
  tools : List Tool := []
  context : List Context := []
  forwardedProperties : Option Json := none
  deriving Repr, DecidableEq

/-- The message that carries state to the server. -/
def stateMessage (document : Json) : ChatMessage where
  role := .user
  contents := [Chat.encodeSnapshot document]

/-- The bytes of a message that holds nothing but a state document. -/
def stateBytes? (message : ChatMessage) : Option Text.Bytes :=
  match message.contents with
  | [.data mediaType bytes] => if mediaType = Chat.snapshotType then some bytes else none
  | _ => none

/-- The part of an item that belongs to the text of a message. -/
def itemText? : ContentItem → Option String
  | .text text => some text
  | .data mediaType bytes =>
      if mediaType = Chat.snapshotType then Text.Utf8.decode? bytes else none
  | _ => none

/-- The text of a message: its texts and the JSON in its data. -/
def wireText (message : ChatMessage) : String :=
  String.join (message.contents.filterMap itemText?)

/-- A function result stands in a message that is no tool message. -/
def misplacedResult (result : FunctionResult) (role : Role) : ClientError :=
  .invalidRequest <|
    "function result '" ++ result.callId ++ "' can only appear in a tool message, not "
      ++ role.name

/-- A function call stands in a message that is not the assistant's. -/
def misplacedCall (call : FunctionCall) (role : Role) : ClientError :=
  .invalidRequest <|
    "function call '" ++ call.callId ++ "' can only appear in an assistant message, not "
      ++ role.name

/-- Why an item may not stand in a message of a role, if it may not. -/
def misplaced? (role : Role) : ContentItem → Option ClientError
  | .call call => if role = .assistant then none else some (misplacedCall call role)
  | .result result => if role = .tool then none else some (misplacedResult result role)
  | _ => none

/-- No item is misplaced. -/
def checkPlaces (message : ChatMessage) : Except ClientError Unit :=
  match message.contents.findSome? (misplaced? message.role) with
  | some error => .error error
  | none => .ok ()

/-- A function call as a wire message carries it. -/
def toToolCall (registry : Registry) (call : FunctionCall) : Except ClientError ToolCall :=
  match call.arguments with
  | none => .ok ⟨call.callId, call.name, "{}"⟩
  | some arguments =>
      match registry.serializeArguments arguments with
      | .ok object => .ok ⟨call.callId, call.name, object.text⟩
      | .error problem => .error (.ofProblem problem)

/-- The function calls of an assistant message; a result among them is refused in its turn. -/
def toToolCalls (registry : Registry) : List ContentItem → Except ClientError (List ToolCall)
  | [] => .ok []
  | .call call :: rest => do
      let first ← toToolCall registry call
      let more ← toToolCalls registry rest
      .ok (first :: more)
  | .result result :: _ => .error (misplacedResult result .assistant)
  | _ :: rest => toToolCalls registry rest

/-- A spoken message. -/
def toSpoken
    (speaker : Speaker)
    (id : String)
    (message : ChatMessage) :
    Except ClientError Message := do
  checkPlaces message
  .ok (.spoken speaker id (wireText message) message.authorName)

/-- An assistant message. -/
def toAssistant
    (registry : Registry)
    (id : String)
    (message : ChatMessage) :
    Except ClientError Message := do
  let calls ← toToolCalls registry message.contents
  let calls? := if calls.isEmpty then none else some calls
  .ok (.assistant id (nonempty? (wireText message)) message.authorName calls?)

/-- A tool message: it has exactly one result. -/
def toTool
    (registry : Registry)
    (id : String)
    (message : ChatMessage) :
    Except ClientError Message := do
  checkPlaces message
  match message.contents.filterMap ContentItem.result? with
  | [result] =>
      match registry.serializeContent result.value with
      | .ok content => .ok (.tool id content result.callId)
      | .error problem => .error (.ofProblem problem)
  | results =>
      .error <| .invalidRequest <|
        "a tool message must carry exactly one function result, found "
          ++ toString results.length

/-- The wire message of a chat message, under an identifier. -/
def toMessage
    (registry : Registry)
    (id : String)
    (message : ChatMessage) :
    Except ClientError Message :=
  match message.role with
  | .system => toSpoken .system id message
  | .developer => toSpoken .developer id message
  | .user => toSpoken .user id message
  | .assistant => toAssistant registry id message
  | .tool => toTool registry id message

/-- The wire messages of some chat messages, in order; a missing id is made. -/
def toMessages
    (registry : Registry)
    (supply : IdSupply) :
    List ChatMessage → Except ClientError (List Message × IdSupply)
  | [] => .ok ([], supply)
  | message :: rest => do
      let (id, supply) := supply.orFresh message.messageId
      let first ← toMessage registry id message
      let (more, supply) ← toMessages registry supply rest
      .ok (first :: more, supply)

/-- The state that the last message carries, and the messages before it. -/
def splitState
    (messages : List ChatMessage) :
    Except ClientError (Option Json × List ChatMessage) :=
  match messages.getLast?.bind stateBytes? with
  | none => .ok (none, messages)
  | some bytes =>
      match Chat.decodeSnapshot bytes with
      | .ok document => .ok (some document, messages.dropLast)
      | .error problem => .error (.ofProblem problem)

/-- The request that starts a run on these messages. -/
def buildRunInput
    (messages : List ChatMessage)
    (options : Options)
    (registry : Registry)
    (supply : IdSupply) :
    Except ClientError (RunInput × IdSupply) := do
  let (state, conversation) ← splitState messages
  let (wire, supply) ← toMessages registry supply conversation
  if wire.isEmpty then
    .error (.invalidRequest "at least one message is required")
  else
    let (runId, supply) := supply.fresh
    let input : RunInput :=
      { threadId := options.conversationId.getD ""
        runId := runId
        messages := wire
        state := state
        context := options.context
        tools := options.tools
        forwardedProperties := options.forwardedProperties }
    .ok (input, supply)

end AgentWire.Client

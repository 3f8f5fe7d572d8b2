import AgentWire.Json.Equality
import AgentWire.Json.Record
import AgentWire.Json.Writer
import AgentWire.Problem
import AgentWire.Role

namespace AgentWire

/-!
# Wire messages

The messages of a conversation as a request carries them.
-/

/-- A function call that an assistant made, with its arguments as JSON text. -/
structure ToolCall where
  id : String
  name : String
  arguments : String
  deriving Repr, DecidableEq

namespace ToolCall

/-- The wire form of a function call. -/
def encode (call : ToolCall) : Json :=
  .object
    [("id", .string call.id),
     ("type", .string "function"),
     ("function", .object
       [("name", .string call.name), ("arguments", .string call.arguments)])]

/-- The members of the function that is called. -/
def functionSchema : Json.Schema :=
  ⟨"struct FunctionCall",
   [.required "name" Json.Decoder.string, .required "arguments" Json.Decoder.string]⟩

/-- Decode the function that is called: its name and its arguments. -/
def decodeFunction : Json.Decoder (String × String) := fun route draft => do
  let parts ← functionSchema.parts route draft
  let name ← parts.required "name" Json.Decoder.string
  let arguments ← parts.required "arguments" Json.Decoder.string
  .ok (name, arguments)

/-- The members of a function call. -/
def schema : Json.Schema :=
  ⟨"struct ToolCall",
   [.required "id" Json.Decoder.string,
    .required "type" (Json.Decoder.bareVariant ["function"]),
    .required "function" decodeFunction]⟩

/-- Decode a function call. -/
def decode : Json.Decoder ToolCall := fun route draft => do
  let parts ← schema.parts route draft
  let id ← parts.required "id" Json.Decoder.string
  let _ ← parts.required "type" (Json.Decoder.bareVariant ["function"])
  let (name, arguments) ← parts.required "function" decodeFunction
  .ok ⟨id, name, arguments⟩

end ToolCall

/-- A message that is neither the assistant's nor a tool's. -/
inductive Speaker where
  | developer
  | system
  | user
  deriving Repr, DecidableEq

namespace Speaker

/-- The role of a speaker. -/
def role : Speaker → Role
  | .developer => .developer
  | .system => .system
  | .user => .user

/-- The words that name messages of a speaker. -/
def title : Speaker → String
  | .developer => "struct variant Message::Developer"
  | .system => "struct variant Message::System"
  | .user => "struct variant Message::User"

end Speaker

/-- A message of a conversation. -/
inductive Message where
  | spoken (speaker : Speaker) (id content : String) (name : Option String)
  | assistant
      (id : String)
      (content name : Option String)
      (toolCalls : Option (List ToolCall))
  | tool (id content toolCallId : String)
  deriving Repr, DecidableEq

namespace Message

/-- The identifier of a message. -/
def id : Message → String
  | .spoken _ id _ _ => id
  | .assistant id _ _ _ => id
  | .tool id _ _ => id

/-- The role of a message. -/
def role : Message → Role
  | .spoken speaker _ _ _ => speaker.role
  | .assistant .. => .assistant
  | .tool .. => .tool

/-- The content of a message; an assistant may have none. -/
def content? : Message → Option String
  | .spoken _ _ content _ => some content
  | .assistant _ content _ _ => content
  | .tool _ content _ => some content

/-- The wire form of a message. -/
def encode (message : Message) : Json :=
  .object <| ("role", .string message.role.name) ::
    match message with
    | .spoken _ id content name =>
        [("id", .string id), ("content", .string content)]
          ++ Json.member? "name" name .string
    | .assistant id content name toolCalls =>
        ("id", .string id)
          :: Json.member? "content" content .string
          ++ Json.member? "name" name .string
          ++ Json.member? "toolCalls" toolCalls (fun calls => .array (calls.map ToolCall.encode))
    | .tool id content toolCallId =>
        [("id", .string id), ("content", .string content),
         ("toolCallId", .string toolCallId)]

/-- The text of a message on the wire. -/
def text (message : Message) : String :=
  message.encode.text

/-- The members of a spoken message. -/
def spokenSchema (speaker : Speaker) : Json.Schema :=
  ⟨speaker.title,
   [.required "id" Json.Decoder.string, .required "content" Json.Decoder.string,
    .omittable "name" Json.Decoder.string]⟩

/-- Decode the parts of a spoken message. -/
def decodeSpoken (speaker : Speaker) (draft : Json.Draft) : Json.Reading Message := do
  let parts ← (spokenSchema speaker).parts .buffer draft
  let id ← parts.required "id" Json.Decoder.string
  let content ← parts.required "content" Json.Decoder.string
  let name ← parts.optional "name" Json.Decoder.string
  .ok (.spoken speaker id content name)

/-- The members of an assistant message. -/
def assistantSchema : Json.Schema :=
  ⟨"struct variant Message::Assistant",
   [.required "id" Json.Decoder.string, .omittable "content" Json.Decoder.string,
    .omittable "name" Json.Decoder.string,
    .omittable "toolCalls" (Json.Decoder.list ToolCall.decode)]⟩

/-- Decode the parts of an assistant message. -/
def decodeAssistant (draft : Json.Draft) : Json.Reading Message := do
  let parts ← assistantSchema.parts .buffer draft
  let id ← parts.required "id" Json.Decoder.string
  let content ← parts.optional "content" Json.Decoder.string
  let name ← parts.optional "name" Json.Decoder.string
  let toolCalls ← parts.optional "toolCalls" (Json.Decoder.list ToolCall.decode)
  .ok (.assistant id content name toolCalls)

/-- The members of a tool message. -/
def toolSchema : Json.Schema :=
  ⟨"struct variant Message::Tool",
   [.required "id" Json.Decoder.string, .required "content" Json.Decoder.string,
    .required "toolCallId" Json.Decoder.string]⟩

/-- Decode the parts of a tool message. -/
def decodeTool (draft : Json.Draft) : Json.Reading Message := do
  let parts ← toolSchema.parts .buffer draft
  let id ← parts.required "id" Json.Decoder.string
  let content ← parts.required "content" Json.Decoder.string
  let toolCallId ← parts.required "toolCallId" Json.Decoder.string
  .ok (.tool id content toolCallId)

/-- Decode the parts of a message whose role is known. -/
def decodeParts : Role → Json.Draft → Json.Reading Message
  | .developer => decodeSpoken .developer
  | .system => decodeSpoken .system
  | .user => decodeSpoken .user
  | .assistant => decodeAssistant
  | .tool => decodeTool

/-- Decode a message. -/
def decode : Json.Decoder Message := fun route draft => do
  let (name, rest) ← Json.Decoder.tagged "Message" "role" Role.names route draft
  match Role.ofName? name with
  | some role => (decodeParts role rest).whole
  | none => .mismatched (.unknownVariant name Role.names)

end Message

end AgentWire

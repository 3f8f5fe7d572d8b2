import AgentWire.Message

namespace AgentWire

/-!
# Run requests

What a client sends to start a run.
-/

/-- Additional context for the agent. -/
structure Context where
  description : String
  value : String
  deriving Repr, DecidableEq

namespace Context

/-- The wire form of a context. -/
def encode (context : Context) : Json :=
  .object [("description", .string context.description), ("value", .string context.value)]

/-- The members of a context. -/
def schema : Json.Schema :=
  ⟨"struct Context",
   [.required "description" Json.Decoder.string, .required "value" Json.Decoder.string]⟩

/-- Decode a context. -/
def decode : Json.Decoder Context := fun route draft => do
  let parts ← schema.parts route draft
  let description ← parts.required "description" Json.Decoder.string
  let value ← parts.required "value" Json.Decoder.string
  .ok ⟨description, value⟩

end Context

/-- A tool that the client offers. -/
structure Tool where
  name : String
  description : String
  parameters : Json
  deriving Repr, DecidableEq

namespace Tool

/-- The wire form of a tool. -/
def encode (tool : Tool) : Json :=
  .object
    [("name", .string tool.name), ("description", .string tool.description),
     ("parameters", tool.parameters)]

/-- The members of a tool. -/
def schema : Json.Schema :=
  ⟨"struct Tool",
   [.required "name" Json.Decoder.string, .required "description" Json.Decoder.string,
    .required "parameters" Json.Decoder.json]⟩

/-- Decode a tool. -/
def decode : Json.Decoder Tool := fun route draft => do
  let parts ← schema.parts route draft
  let name ← parts.required "name" Json.Decoder.string
  let description ← parts.required "description" Json.Decoder.string
  let parameters ← parts.required "parameters" Json.Decoder.json
  .ok ⟨name, description, parameters⟩

end Tool

/-- The request that starts a run. -/
structure RunInput where
  threadId : String
  runId : String
  messages : List Message
  state : Option Json := none
  context : List Context := []
  tools : List Tool := []
  forwardedProperties : Option Json := none
  deriving Repr, DecidableEq

namespace RunInput

/-- The wire form of a request. -/
def encode (input : RunInput) : Json :=
  .object <|
    [("threadId", .string input.threadId), ("runId", .string input.runId),
     ("messages", .array (input.messages.map Message.encode))]
      ++ Json.member? "state" input.state (·)
      ++ Json.listMember? "context" input.context Context.encode
      ++ Json.listMember? "tools" input.tools Tool.encode
      ++ Json.member? "forwardedProperties" input.forwardedProperties (·)

/-- The text of a request on the wire. -/
def text (input : RunInput) : String :=
  input.encode.text

/-- The members of a request. -/
def schema : Json.Schema :=
  ⟨"struct RunAgentInput",
   [.required "threadId" Json.Decoder.string,
    .required "runId" Json.Decoder.string,
    .required "messages" (Json.Decoder.list Message.decode),
    .omittable "state" Json.Decoder.json,
    .defaulted "context" (Json.Decoder.list Context.decode),
    .defaulted "tools" (Json.Decoder.list Tool.decode),
    .omittable "forwardedProperties" Json.Decoder.json]⟩

/-- Decode a request. -/
def decode : Json.Decoder RunInput := fun route draft => do
  let parts ← schema.parts route draft
  let threadId ← parts.required "threadId" Json.Decoder.string
  let runId ← parts.required "runId" Json.Decoder.string
  let messages ← parts.required "messages" (Json.Decoder.list Message.decode)
  let state ← parts.optional "state" Json.Decoder.json
  let context ← parts.listOrEmpty "context" (Json.Decoder.list Context.decode)
  let tools ← parts.listOrEmpty "tools" (Json.Decoder.list Tool.decode)
  let forwardedProperties ← parts.optional "forwardedProperties" Json.Decoder.json
  .ok { threadId, runId, messages, state, context, tools, forwardedProperties }

/-- A request must have a message. -/
def validate (input : RunInput) : Except Problem Unit :=
  if input.messages.isEmpty then
    .error (.validation "messages must contain at least one entry")
  else
    .ok ()

end RunInput

end AgentWire

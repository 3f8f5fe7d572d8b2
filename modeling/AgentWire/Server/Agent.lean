import AgentWire.RunInput
import AgentWire.Server.EventStream

namespace AgentWire.Server

/-!
# Agents

An agent answers a request with a stream of events, and tells about itself.
-/

/-- What an agent tells about itself. -/
structure AgentCard where
  name : String := "Generic Agent"
  description : String := "A generic AG-UI compatible agent"
  version : String := "1.0.0"
  capabilities : List String := ["text_generation"]
  supportsResume : Bool := true
  supportsState : Bool := false
  deriving Repr, DecidableEq

namespace AgentCard

/-- The wire form of a card. -/
def encode (card : AgentCard) : Json :=
  .object
    [("name", .string card.name), ("description", .string card.description),
     ("version", .string card.version),
     ("capabilities", .array (card.capabilities.map .string)),
     ("supports_resume", .bool card.supportsResume),
     ("supports_state", .bool card.supportsState)]

end AgentCard

/-- An agent; the ids of a request are never empty here. -/
structure Agent where
  handle : RunInput → IdSupply → Except ServerError (EventStream × IdSupply)
  card : Except ServerError AgentCard := .ok {}

namespace Agent

/-- Refuse a request that is not valid. -/
def validate (input : RunInput) : Except ServerError Unit :=
  input.validate.mapError fun problem => .invalidInput problem.message

/-- Hand a request to an agent, if it is valid. -/
def answer
    (agent : Agent)
    (input : RunInput)
    (supply : IdSupply) :
    Except ServerError (EventStream × IdSupply) := do
  validate input
  agent.handle input supply

end Agent

/-- The request with new ids in place of empty ones. -/
def identified (input : RunInput) (supply : IdSupply) : RunInput × IdSupply :=
  let (threadId, supply) := supply.orFresh (some input.threadId)
  let (runId, supply) := supply.orFresh (some input.runId)
  ({ input with threadId, runId }, supply)

end AgentWire.Server

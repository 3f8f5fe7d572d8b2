import AgentWire.Problem

namespace AgentWire.Client

/-!
# What can go wrong for a client

Only a failed connection and a server that reports an error of its own may be
tried again.
-/

/-- An event that the protocol does not allow where it arrives. -/
inductive Violation where
  | overlappingTextMessage (opened started : String)
  | textMessageDuringToolCall (opened started : String)
  | overlappingToolCall (opened started : String)
  | toolCallDuringTextMessage (opened started : String)
  | messageIdMismatch (event expected actual : String)
  | toolCallIdMismatch (event expected actual : String)
  | unexpectedEvent (event state : String)
  deriving Repr, DecidableEq

namespace Violation

/-- The name of a violation. -/
def name : Violation → String
  | .overlappingTextMessage .. => "OverlappingTextMessage"
  | .textMessageDuringToolCall .. => "TextMessageDuringToolCall"
  | .overlappingToolCall .. => "OverlappingToolCall"
  | .toolCallDuringTextMessage .. => "ToolCallDuringTextMessage"
  | .messageIdMismatch .. => "MessageIdMismatch"
  | .toolCallIdMismatch .. => "ToolCallIdMismatch"
  | .unexpectedEvent .. => "UnexpectedEvent"

/-- The wording of a violation. -/
def message : Violation → String
  | .overlappingTextMessage opened started =>
      "text message '" ++ started ++ "' started while text message '" ++ opened
        ++ "' is still open"
  | .textMessageDuringToolCall opened started =>
      "text message '" ++ started ++ "' started while tool call '" ++ opened
        ++ "' is still open"
  | .overlappingToolCall opened started =>
      "tool call '" ++ started ++ "' started while tool call '" ++ opened
        ++ "' is still open"
  | .toolCallDuringTextMessage opened started =>
      "tool call '" ++ started ++ "' started while text message '" ++ opened
        ++ "' is still open"
  | .messageIdMismatch event expected actual =>
      event ++ " references message '" ++ actual ++ "' but message '" ++ expected
        ++ "' is open"
  | .toolCallIdMismatch event expected actual =>
      event ++ " references tool call '" ++ actual ++ "' but tool call '" ++ expected
        ++ "' is open"
  | .unexpectedEvent event state => event ++ " is not allowed while " ++ state

end Violation

/-- Why an operation of a client failed. -/
inductive ClientError where
  | transport (status : Nat) (body : String)
  | authentication (status : Nat) (body : String)
  | connection (message : String)
  | retriesExhausted (attempts : Nat) (last : ClientError)
  | protocol (violation : Violation)
  | malformed (field message : String)
  | serialization (message : String)
  | storage (message : String)
  | invalidRequest (message : String)
  | cancelled
  deriving Repr, DecidableEq

namespace ClientError

/-- The error of an answer that is no success. -/
def ofStatus (status : Nat) (body : String) : ClientError :=
  if status = 401 ∨ status = 403 then
    .authentication status body
  else
    .transport status body

/-- Whether the operation may succeed if it is tried again. -/
def isRetryable : ClientError → Bool
  | .transport status _ => 500 ≤ status
  | .connection _ => true
  | _ => false

/-- The status of an answer that was no success. -/
def status? : ClientError → Option Nat
  | .transport status _ => some status
  | .authentication status _ => some status
  | _ => none

/-- The name of an error; a violation of the protocol has a name of its own. -/
def name : ClientError → String
  | .transport .. => "Transport"
  | .authentication .. => "Authentication"
  | .connection _ => "Connection"
  | .retriesExhausted .. => "RetriesExhausted"
  | .protocol violation => "Protocol." ++ violation.name
  | .malformed .. => "MalformedPayload"
  | .serialization _ => "Serialization"
  | .storage _ => "Storage"
  | .invalidRequest _ => "InvalidRequest"
  | .cancelled => "Cancelled"

/-- The wording of an error. -/
def message : ClientError → String
  | .transport status body =>
      "Server returned HTTP " ++ toString status ++ ": " ++ body
  | .authentication status body =>
      "Authentication failed with HTTP " ++ toString status ++ ": " ++ body
  | .connection text => "Connection error: " ++ text
  | .retriesExhausted attempts last =>
      "Giving up after " ++ toString attempts ++ " failed attempts: " ++ last.message
  | .protocol violation => "Protocol violation: " ++ violation.message
  | .malformed field text => "Malformed payload in '" ++ field ++ "': " ++ text
  | .serialization text => "Serialization error: " ++ text
  | .storage text => "Resume store error: " ++ text
  | .invalidRequest text => "Invalid request: " ++ text
  | .cancelled => "Operation cancelled"

/-- A problem with wire data as a client reports it. -/
def ofProblem : Problem → ClientError
  | .malformed field text => .malformed field text
  | .invalidEventType name => .malformed "type" ("unknown event type '" ++ name ++ "'")
  | .missingField field => .malformed field "required field is missing"
  | .validation text => .invalidRequest text
  | .serialization text => .serialization (Problem.serialization text).message
  | .unregisteredType name => .serialization (Problem.unregisteredType name).message

end ClientError

end AgentWire.Client

import AgentWire.Json.Fault
import AgentWire.Problem

namespace AgentWire.Server

/-!
# What can go wrong for a server

Every error has a name that clients may test and a status for the answer.
-/

/-- Why a server could not do what it was asked for. -/
inductive ServerError where
  | agent (message : String)
  | json (refusal : Json.Refusal)
  | protocol (problem : Problem)
  | io (message : String)
  | invalidRequest (message : String)
  | invalidInput (message : String)
  | runNotFound (runId : String)
  | config (message : String)
  | internal (message : String)
  deriving Repr, DecidableEq

namespace ServerError

/-- The name of an error. -/
def name : ServerError → String
  | .agent _ => "agent_error"
  | .json _ => "json_error"
  | .protocol _ => "protocol_error"
  | .io _ => "io_error"
  | .invalidRequest _ => "invalid_request"
  | .invalidInput _ => "invalid_input"
  | .runNotFound _ => "run_not_found"
  | .config _ => "config_error"
  | .internal _ => "internal_error"

/-- The status of an answer with an error. -/
def status : ServerError → Nat
  | .invalidRequest _ | .invalidInput _ | .json _ => 400
  | .runNotFound _ => 404
  | .agent _ | .protocol _ => 422
  | .io _ | .config _ | .internal _ => 500

/-- The wording of an error. -/
def message : ServerError → String
  | .agent text => "Agent execution failed: " ++ text
  | .json refusal => "JSON error: " ++ refusal.message
  | .protocol problem => "Protocol error: " ++ problem.message
  | .io text => "IO error: " ++ text
  | .invalidRequest text => "Invalid request: " ++ text
  | .invalidInput text => "Invalid agent input: " ++ text
  | .runNotFound runId => "Unknown run: " ++ runId
  | .config text => "Configuration error: " ++ text
  | .internal text => "Internal server error: " ++ text

end ServerError

end AgentWire.Server

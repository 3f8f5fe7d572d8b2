import AgentWire.Client.Error
import AgentWire.Client.Retry
import AgentWire.Decimal.Word
import AgentWire.Text.Blank

namespace AgentWire.Client

/-!
# Settings of a client

The defaults can be overridden by environment variables and then by the caller.
-/

/-- The settings of a client that talks to an endpoint. -/
structure Config where
  endpoint : String := "http://127.0.0.1:3000/stream"
  connectTimeout : Delay := .ofSeconds 10
  retry : RetryPolicy := {}
  resumeDir : Option String := none
  headers : List (String × String) := []
  deriving Repr, DecidableEq

/-- The variable that names the endpoint. -/
def endpointVariable : String := "AGUI_ENDPOINT"

/-- The variable that sets how often a client tries again. -/
def attemptsVariable : String := "AGUI_MAX_RETRY_ATTEMPTS"

/-- The variable that names the directory for resume state. -/
def resumeDirVariable : String := "AGUI_RESUME_DIR"

namespace Config

/-- The value of a variable that is set and not empty. -/
def setting? (lookup : String → Option String) (name : String) : Option String :=
  (lookup name).filter (!·.isEmpty)

/-- The retry policy of an environment. -/
def retryFrom (lookup : String → Option String) : Except ClientError RetryPolicy :=
  match lookup attemptsVariable with
  | none => .ok {}
  | some text =>
      match Decimal.readWord32 (Text.trim text) with
      | .ok attempts => .ok { maxAttempts := UInt32.ofNat attempts }
      | .error fault =>
          .error <| .invalidRequest <|
            attemptsVariable ++ " must be a non-negative integer: " ++ fault.message

/-- The settings of an environment. -/
def ofEnvironment (lookup : String → Option String) : Except ClientError Config := do
  let retry ← retryFrom lookup
  .ok
    { endpoint := (setting? lookup endpointVariable).getD ({} : Config).endpoint
      retry := retry
      resumeDir := setting? lookup resumeDirVariable }

/-- Send one more header with every request. -/
def withHeader (config : Config) (name value : String) : Config :=
  { config with headers := config.headers ++ [(name, value)] }

/-- Send a bearer token with every request. -/
def withBearerToken (config : Config) (token : String) : Config :=
  config.withHeader "Authorization" ("Bearer " ++ token)

end Config

end AgentWire.Client

import AgentWire.Cli.Arguments
import AgentWire.Client.Config

namespace AgentWire.Cli

/-!
# Calling the client from a terminal

The words of the command line are the prompt.  Options override the environment.
-/

open Client (ClientError Config)

/-- What is one too many for a signed word of 64 bits. -/
def signedBound : Nat := 9223372036854775808

/-- A whole number in decimal with an optional sign. -/
def readInteger (text : String) : Option Int :=
  match text.toList with
  | '-' :: digits =>
      match Decimal.readDigits (signedBound + 1) 0 digits with
      | .ok value => if digits.isEmpty then none else some (-value)
      | .error _ => none
  | _ =>
      match Decimal.readWord signedBound text with
      | .ok value => some value
      | .error _ => none

/-- The word of 32 bits that an option gives. -/
def readCount (text : String) : Option UInt32 :=
  match readInteger text with
  | some (.ofNat value) => if value < UInt32.size then some (UInt32.ofNat value) else none
  | _ => none

/-- The command line of the client. -/
structure Invocation where
  endpoint : Option String
  conversation : Option String
  resumeDir : Option String
  token : Option String
  maxRetries : Option UInt32
  logLevel : String
  prompt : List String
  deriving Repr, DecidableEq

namespace Invocation

/-- The options of the client. -/
def options : List OptionSpec :=
  [.text "endpoint" (some 'e'),
   .text "conversation" (some 'c'),
   .path "resume-dir",
   .text "token" none,
   .tested "max-retries" (readCount · |>.isSome),
   .text "log-level" (some 'l'),
   .help,
   .version]

/-- Read the command line of the client. -/
def read (line : List String) : Except UsageFault Invocation := do
  let arguments ← Arguments.read options true line
  if arguments.words.isEmpty then
    .error .missingRequiredArgument
  else
    .ok
      { endpoint := arguments.value? "endpoint"
        conversation := arguments.value? "conversation"
        resumeDir := arguments.value? "resume-dir"
        token := arguments.value? "token"
        maxRetries := (arguments.value? "max-retries").bind readCount
        logLevel := (arguments.value? "log-level").getD "warn"
        prompt := arguments.words }

/-- The settings of the client with the options of the command line. -/
def apply (invocation : Invocation) (config : Config) : Config :=
  let config :=
    { config with
      endpoint := invocation.endpoint.getD config.endpoint
      resumeDir := invocation.resumeDir.or config.resumeDir
      retry :=
        { config.retry with
          maxAttempts := invocation.maxRetries.getD config.retry.maxAttempts } }
  match invocation.token with
  | some token => config.withBearerToken token
  | none => config

/-- The settings of the client in an environment, or why there are none. -/
def config
    (invocation : Invocation)
    (environment : String → Option String) :
    Except String Config :=
  match Config.ofEnvironment environment with
  | .error error => .error error.message
  | .ok config =>
      let config := invocation.apply config
      if config.endpoint.isEmpty then
        .error "No endpoint given. Use --endpoint or set AGUI_ENDPOINT"
      else
        .ok config

end Invocation

end AgentWire.Cli

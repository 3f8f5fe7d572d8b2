import AgentWire.Cli.Arguments
import AgentWire.Decimal.Word
import AgentWire.Server.Echo
import AgentWire.Server.Service
import AgentWire.Text.Blank

namespace AgentWire.Cli

/-!
# Starting a server from a terminal

The server runs the agent that repeats what it is told.
-/

open Server (ServerConfig ServerError Service)

/-- The command line of the server. -/
structure Demonstration where
  bind : String := "127.0.0.1:3000"
  origins : Option String := none
  maxBody : Nat := 1024 * 1024
  /-- In seconds. -/
  keepAlive : Nat := 30
  /-- In seconds. -/
  retention : Nat := 300
  /-- In milliseconds. -/
  wordDelay : Nat := 50
  logLevel : String := "info"
  deriving Repr, DecidableEq

namespace Demonstration

/-- Whether an option has a word of 64 bits for a value. -/
def isWord (text : String) : Bool :=
  (Decimal.readWord64 text).isOk

/-- The options of the server. -/
def options : List OptionSpec :=
  [.text "bind" (some 'b'),
   ⟨"cors", none, .flag⟩,
   .text "cors-origins" none,
   .tested "max-body-size" isWord,
   ⟨"logging", none, .flag⟩,
   .tested "keepalive" isWord,
   .tested "retention" isWord,
   .tested "word-delay" isWord,
   .text "log-level" none,
   .help,
   .version]

/-- The word that an option gives. -/
def word? (arguments : Arguments) (long : String) : Option Nat :=
  (arguments.value? long).bind fun text => (Decimal.readWord64 text).toOption

/-- Read the command line of the server. -/
def read (line : List String) : Except UsageFault Demonstration := do
  let arguments ← Arguments.read options false line
  let default : Demonstration := {}
  .ok
    { bind := (arguments.value? "bind").getD default.bind
      origins := arguments.value? "cors-origins"
      maxBody := (word? arguments "max-body-size").getD default.maxBody
      keepAlive := (word? arguments "keepalive").getD default.keepAlive
      retention := (word? arguments "retention").getD default.retention
      wordDelay := (word? arguments "word-delay").getD default.wordDelay
      logLevel := (arguments.value? "log-level").getD default.logLevel }

/-- The settings that a command line gives a server. -/
def config (demonstration : Demonstration) : Except ServerError ServerConfig :=
  ServerConfig.withBind
    { origins := demonstration.origins.map fun list => (Text.split ',' list).map Text.trim
      maxBody := demonstration.maxBody
      keepAlive := demonstration.keepAlive * 1000
      retention := demonstration.retention * 1000 }
    demonstration.bind

/-- The server that a command line starts, or the code with which it ends instead. -/
def start (line : List String) : Except Nat Service :=
  match read line with
  | .error fault => .error (if fault.isRequest then 0 else 2)
  | .ok demonstration =>
      match demonstration.config with
      | .error _ => .error 1
      | .ok config => .ok { agent := Server.Echo.agent demonstration.wordDelay, config }

end Demonstration

end AgentWire.Cli

import AgentWire.Cli.Invocation
import AgentWire.Cli.Report
import AgentWire.Client.HttpLine
import AgentWire.Client.Rehearsal

namespace AgentWire.Cli

/-!
# A conversation at a terminal

What the client writes while it follows a run, and the code with which it ends.
Texts of the agent are the output; everything else is the report.
-/

open Chat (ChatMessage)
open Client (Call Config HttpLine Note Options Scene)

/-- What was written so far. -/
structure Transcript where
  output : String := ""
  report : String := ""
  code : Nat := 0
  conversation : Option String := none
  deriving Repr, DecidableEq

namespace Transcript

/-- Add a line to the report. -/
def line (transcript : Transcript) (text : String) : Transcript :=
  { transcript with report := transcript.report ++ text ++ "\n" }

/-- End the output, and name the conversation if it is known. -/
def close (transcript : Transcript) : Transcript :=
  let transcript := { transcript with output := transcript.output ++ "\n" }
  match transcript.conversation with
  | none => transcript
  | some id => transcript.line ("conversation: " ++ id)

/-- End with an error. -/
def fail (transcript : Transcript) (message : String) : Transcript :=
  { transcript.line ("Error: " ++ message) with code := 1 }

/-- Write an update. -/
def update (transcript : Transcript) (update : Chat.Update) : Transcript :=
  { (reportLines update).foldl line transcript with
    output := transcript.output ++ render update
    conversation := update.conversationId.or transcript.conversation }

/-- Write what happens while a run is followed; nothing is written behind an error. -/
def take (transcript : Transcript) (note : Note) : Transcript :=
  match note with
  | .update received => transcript.update received
  | .failed error => transcript.close.fail error.message
  | .ended => if transcript.code = 0 then transcript.close else transcript
  | _ => transcript

/-- The transcript of a command line that is refused. -/
def refused (fault : UsageFault) : Transcript where
  code := if fault.isRequest then 0 else 2

end Transcript

namespace Invocation

/-- The message that a command line asks the agent to answer. -/
def message (invocation : Invocation) : ChatMessage where
  role := .user
  contents := [.text (String.intercalate " " invocation.prompt)]

/-- The options of the call that a command line makes. -/
def callOptions (invocation : Invocation) : Options where
  conversationId := invocation.conversation

/-- The store that the settings name. -/
def store (config : Config) : Resume.Store :=
  match config.resumeDir with
  | none => .memory []
  | some path => .files { path }

/-- The surroundings of a client that reaches no server. -/
def offline (config : Config) : Scene where
  store := store config
  refusal := (HttpLine.ofConfig config).refusal false

/-- Carry out a command line in some surroundings, with at most a number of steps. -/
def play
    (invocation : Invocation)
    (environment : String → Option String)
    (surroundings : Config → Scene)
    (steps : Nat) :
    Transcript :=
  match invocation.config environment with
  | .error message => ({} : Transcript).fail message
  | .ok config =>
      let start : Transcript := { conversation := invocation.conversation }
      match Call.start { policy := config.retry } [invocation.message] invocation.callOptions {} with
      | .error error => start.close.fail error.message
      | .ok call =>
          (call.rehearse steps (surroundings config)).2.history.foldl Transcript.take start

end Invocation

end AgentWire.Cli

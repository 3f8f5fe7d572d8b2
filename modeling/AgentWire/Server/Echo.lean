import AgentWire.Server.Agent
import AgentWire.Text.Split

namespace AgentWire.Server

/-!
# An agent that repeats what it is told

It counts the turns in the shared state, and asks for a tool when it is asked for
the time.
-/

open Chat (ContentItem Update)

namespace Echo

/-- The result that the last message of a request brings, if it is a tool's. -/
def toolResult? (input : RunInput) : Option String :=
  match input.messages.getLast? with
  | some (.tool _ content _) => some content
  | _ => none

/-- How many turns the state of a request counts. -/
def turns (input : RunInput) : Int64 :=
  match input.state.bind (·.get? "turns") with
  | some (.number (.integer count)) => count.toSigned?.getD 0
  | _ => 0

/-- The text of the last message of the user. -/
def lastUserText? (input : RunInput) : Option String :=
  (input.messages.reverse.find? (·.role == .user)).map fun message =>
    message.content?.getD ""

/-- Whether some characters stand next to each other in others. -/
def occursIn (part : List Char) : List Char → Bool
  | [] => part.isEmpty
  | c :: rest => part.isPrefixOf (c :: rest) || occursIn part rest

/-- Whether a text asks for the time. -/
def asksForTime (text : String) : Bool :=
  occursIn "time".toList (Text.lowerAscii text).toList

/-- An update of the assistant with one item. -/
def say (item : ContentItem) : Update where
  role := .assistant
  contents := [item]

/-- The document that counts the turns. -/
def turnsDocument (count : Int64) : Json :=
  .object [("turns", .signed count)]

/-- The updates that repeat a text. -/
def repetition (input : RunInput) (text : String) : List Update :=
  let count := turns input
  say (Chat.encodeSnapshot (turnsDocument count))
    :: (Text.splitBehind ' ' [] ("Echo: " ++ text).toList).map (say ∘ .text)
    ++ [say (Chat.encodeDelta [.replace "/turns" (.signed (count + 1))])]

/-- Updates with a pause before each. -/
def paced (delay : Nat) (updates : List Update) : List (Timed Update) :=
  updates.flatMap fun update => [.pause delay, .arrival update]

/-- Answer a request, with a pause before each update. -/
def handle
    (delay : Nat)
    (input : RunInput)
    (supply : IdSupply) :
    Except ServerError (EventStream × IdSupply) :=
  let { threadId, runId, .. } := input
  match toolResult? input with
  | some result =>
      .ok (EventStream.ofText threadId runId ("The tool answered: " ++ result) supply)
  | none =>
      match lastUserText? input with
      | none => .error (.invalidInput "No user message found")
      | some text =>
          if asksForTime text then
            let (callId, supply) := supply.fresh
            let call := say (.call ⟨callId, "lookup_time", some []⟩)
            .ok (EventStream.ofUpdates threadId runId .empty [.arrival call] supply)
          else
            let updates := paced delay (repetition input text)
            .ok (EventStream.ofUpdates threadId runId .empty updates supply)

/-- What the agent tells about itself. -/
def card : AgentCard where
  name := "Echo Agent"
  description := "A simple echo agent that repeats user messages with streaming"
  version := "0.1.0"
  capabilities := ({} : AgentCard).capabilities ++ ["streaming", "tool_calls"]
  supportsState := true

/-- The agent with a pause before each update. -/
def agent (delay : Nat) : Agent where
  handle := handle delay
  card := .ok card

end Echo

end AgentWire.Server

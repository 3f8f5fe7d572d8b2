import AgentWire.Chat.State

namespace AgentWire.Cli

/-!
# What a terminal shows

Texts are written as they come.  Everything else gets one line of its own.
-/

open Chat (ContentItem FunctionCall Payload Update)

/-- A payload on a line. -/
def showPayload : Payload → String
  | .json value => value.text
  | .custom _ => "<custom>"

/-- The arguments of a function call on a line. -/
def showArguments (call : FunctionCall) : String :=
  String.intercalate ", " <|
    (call.arguments.getD []).map fun (name, value) => name ++ "=" ++ showPayload value

/-- The line of an item; a text has none. -/
def describe : ContentItem → Option String
  | .text _ => none
  | .call made =>
      some ("[tool call " ++ made.callId ++ "] " ++ made.name ++ "(" ++ showArguments made ++ ")")
  | .result given =>
      some ("[tool result " ++ given.callId ++ "] " ++ showPayload given.value)
  | .data mediaType bytes =>
      some <|
        match Chat.decodeState (.data mediaType bytes) with
        | .ok (some (.snapshot document)) => "[state] " ++ document.text
        | .ok (some (.delta patch)) =>
            "[state delta] " ++ toString patch.length ++ " operation(s)"
        | _ => "[data] " ++ mediaType ++ " (" ++ toString bytes.length ++ " bytes)"
  | .error message (some code) => some ("[error " ++ code ++ "] " ++ message)
  | .error message none => some ("[error] " ++ message)

/-- The lines that an update adds to the report. -/
def reportLines (update : Update) : List String :=
  update.contents.filterMap describe

/-- The text that an update adds to the output. -/
def render (update : Update) : String :=
  update.text

end AgentWire.Cli

import AgentWire.Chat.Registry
import AgentWire.Chat.State
import AgentWire.Event.Basic
import AgentWire.IdSupply
import AgentWire.Server.Error

namespace AgentWire.Server

/-!
# From updates to events

An encoder turns the updates of one run into its events.  Texts are opened and
closed around their contents, tool calls stand outside of texts, and nothing
follows the event that ends the run.

An update that cannot be encoded gives no events, but what the encoder has done
for it up to there is kept.
-/

open Chat (ContentItem FunctionCall FunctionResult Registry Update)

/-- The encoder of one run. -/
structure Encoder where
  threadId : String
  runId : String
  registry : Registry := .empty
  /-- The id of the text message that is open. -/
  openText : Option String := none
  /-- The id of the text message that was opened last. -/
  lastText : Option String := none
  started : Bool := false
  stopped : Bool := false
  supply : IdSupply := {}

namespace Encoder

/-- The start of the run; only the first call gives it. -/
def start (encoder : Encoder) : List Event × Encoder :=
  if encoder.started || encoder.stopped then
    ([], encoder)
  else
    ([(EventBody.runStarted encoder.threadId encoder.runId).toEvent],
     { encoder with started := true })

/-- Close the open text, if there is one. -/
def closeText (encoder : Encoder) : List Event × Encoder :=
  match encoder.openText with
  | none => ([], encoder)
  | some id => ([(EventBody.textMessageEnd id).toEvent], { encoder with openText := none })

/-- The role under which a text is sent; a tool has none and speaks as the assistant. -/
def textRole : Role → Role
  | .tool => .assistant
  | role => role

/-- Open a text of an update whatever is open. -/
def openTextOf (encoder : Encoder) (update : Update) : String × List Event × Encoder :=
  let (id, supply) :=
    match update.messageId with
    | some id => (id, encoder.supply)
    | none => encoder.supply.fresh
  (id, [(EventBody.textMessageStart id (textRole update.role).name).toEvent],
   { encoder with supply, openText := some id, lastText := some id })

/-- The text that an update goes on with, which is opened if it is not open yet. -/
def textFor (encoder : Encoder) (update : Update) : String × List Event × Encoder :=
  match encoder.openText with
  | none => encoder.openTextOf update
  | some id =>
      if update.messageId.getD id = id then
        (id, [], encoder)
      else
        let (closed, encoder) := encoder.closeText
        let (id, opened, encoder) := encoder.openTextOf update
        (id, closed ++ opened, encoder)

/-- The events of the arguments of a call, if it was made with any. -/
def argumentEvents (encoder : Encoder) (call : FunctionCall) : Except Problem (List Event) :=
  match call.arguments with
  | none => .ok []
  | some arguments => do
      let document ← encoder.registry.serializeArguments arguments
      .ok [(EventBody.toolCallArgs call.callId document.text).toEvent]

/-- The events of a call. -/
def callEvents (encoder : Encoder) (call : FunctionCall) : Except Problem (List Event) := do
  let arguments ← encoder.argumentEvents call
  .ok <|
    (EventBody.toolCallStart call.callId call.name encoder.lastText).toEvent
      :: arguments
      ++ [(EventBody.toolCallEnd call.callId).toEvent]

/-- The event of a result under a message id. -/
def resultEvent
    (encoder : Encoder)
    (messageId : String)
    (result : FunctionResult) :
    Except Problem Event := do
  let content ← encoder.registry.serializeContent result.value
  .ok (EventBody.toolCallResult messageId result.callId content (some "tool")).toEvent

/-- The events of one item of an update. -/
def encodeItem
    (encoder : Encoder)
    (update : Update) :
    ContentItem → Except Problem (List Event) × Encoder
  | .text words =>
      if words.isEmpty then
        (.ok [], encoder)
      else
        let (id, events, encoder) := encoder.textFor update
        (.ok (events ++ [(EventBody.textMessageContent id words).toEvent]), encoder)
  | .call call =>
      let (closed, encoder) := encoder.closeText
      ((encoder.callEvents call).map (closed ++ ·), encoder)
  | .result result =>
      let (closed, encoder) := encoder.closeText
      let (id, supply) := encoder.supply.fresh
      match encoder.resultEvent id result with
      | .ok event => (.ok (closed ++ [event]), { encoder with supply })
      | .error problem => (.error problem, encoder)
  | .error message code =>
      let (closed, encoder) := encoder.closeText
      (.ok (closed ++ [(EventBody.runError message code).toEvent]),
       { encoder with stopped := true })
  | .data mediaType bytes =>
      match Chat.decodeState (.data mediaType bytes) with
      | .error problem => (.error problem, encoder)
      | .ok none => (.ok [], encoder)
      | .ok (some (.snapshot document)) =>
          (.ok [(EventBody.stateSnapshot (some document)).toEvent], encoder)
      | .ok (some (.delta patch)) =>
          (.ok [(EventBody.stateDelta (some patch)).toEvent], encoder)

/-- The events of some items of an update; nothing behind an error is encoded. -/
def encodeItems
    (encoder : Encoder)
    (update : Update) :
    List ContentItem → Except Problem (List Event) × Encoder
  | [] => (.ok [], encoder)
  | item :: rest =>
      match encoder.encodeItem update item with
      | (.error problem, encoder) => (.error problem, encoder)
      | (.ok events, encoder) =>
          if encoder.stopped then
            (.ok events, encoder)
          else
            let (more, encoder) := encoder.encodeItems update rest
            (more.map (events ++ ·), encoder)

/-- The events of an update, with the start of the run if it is owed. -/
def encode (encoder : Encoder) (update : Update) : Except ServerError (List Event) × Encoder :=
  let (started, encoder) := encoder.start
  if encoder.stopped then
    (.ok started, encoder)
  else
    let (events, encoder) := encoder.encodeItems update update.contents
    ((events.map (started ++ ·)).mapError ServerError.protocol, encoder)

/-- The end of the run, with its start if it is owed. -/
def finish (encoder : Encoder) (result : Option Json) : List Event × Encoder :=
  let (started, encoder) := encoder.start
  if encoder.stopped then
    (started, encoder)
  else
    let (closed, encoder) := encoder.closeText
    (started ++ closed
      ++ [(EventBody.runFinished encoder.threadId encoder.runId result).toEvent],
     { encoder with stopped := true })

end Encoder

end AgentWire.Server

import AgentWire.Chat.Response
import AgentWire.Client.Error
import AgentWire.Client.Outbound

namespace AgentWire.Client

/-!
# Turns with functions

A turn makes one call after the other for as long as the model asks for
functions that can be run here.  Their results become updates of the turn and
messages of the next call.  All updates carry the conversation id of the first
call; the later calls are made without one.
-/

open Chat (ChatMessage ContentItem FunctionCall Payload Response Update)

/-- Whether an item is sent back to the model. -/
def isHistory : ContentItem → Bool
  | .text _ | .call _ | .result _ => true
  | _ => false

/-- The messages to send back for one message of a response. -/
def historyOf (message : ChatMessage) : List ChatMessage :=
  let contents := message.contents.filter isHistory
  if contents.isEmpty then
    []
  else if message.role = .tool then
    (contents.filter (·.result?.isSome)).map fun item => { role := .tool, contents := [item] }
  else
    [{ message with contents }]

/-- The messages to send back for the updates of a call; a tool message has one result. -/
def historyFrom (updates : List Update) : List ChatMessage :=
  (Response.ofUpdates updates).messages.flatMap historyOf

/-- The function calls in some updates, in order. -/
def callsIn (updates : List Update) : List FunctionCall :=
  (updates.flatMap (·.contents)).filterMap ContentItem.call?

/-- The ids of the calls that have a result in some updates. -/
def answeredIn (updates : List Update) : List String :=
  ((updates.flatMap (·.contents)).filterMap ContentItem.result?).map (·.callId)

/-- The calls in some updates that have no result there. -/
def pendingIn (updates : List Update) : List FunctionCall :=
  (callsIn updates).filter fun call => !(answeredIn updates).contains call.callId

/-- What a turn does next. -/
inductive TurnAction where
  /-- Start a call. -/
  | ask (messages : List ChatMessage) (options : Options)
  /-- Take the next update of the call. -/
  | pull
  | deliver (update : Update)
  /-- Look whether the turn is cancelled. -/
  | check
  /-- Run a function. -/
  | invoke (call : FunctionCall)
  | finish
  | fail (error : ClientError)
  deriving Repr, DecidableEq

/-- How the surroundings answer. -/
inductive TurnAnswer where
  /-- It is done. -/
  | done
  /-- The call hands over an update. -/
  | update (update : Update)
  /-- The call has ended. -/
  | closed
  /-- A function has returned. -/
  | returned (value : Payload)
  /-- It failed, or was cancelled. -/
  | failed (error : ClientError)
  deriving Repr, DecidableEq

/-- Where a turn stands. -/
inductive TurnStage where
  | asking
  | listening
  | delivering (update : Update)
  /-- Before a function is run, with the calls that come after it. -/
  | checking (call : FunctionCall) (rest : List FunctionCall)
  | invoking (call : FunctionCall) (rest : List FunctionCall)
  /-- Hand over the result of a function. -/
  | reporting (update : Update) (rest : List FunctionCall)
  | finished
  | failed (error : ClientError)
  deriving Repr, DecidableEq

/-- A turn. -/
structure Turn where
  /-- How many calls the turn may make. -/
  limit : Nat
  history : List ChatMessage
  options : Options
  /-- The conversation id of the turn, once it is known. -/
  turnId : Option String
  supply : IdSupply
  /-- How many calls were made before this one. -/
  made : Nat := 0
  /-- The updates of this call. -/
  received : List Update := []
  stage : TurnStage := .asking
  deriving Repr, DecidableEq

namespace Turn

/-- A turn on these messages; it may make at least one call. -/
def start
    (limit : Nat)
    (messages : List ChatMessage)
    (options : Options)
    (supply : IdSupply) :
    Turn where
  limit := max limit 1
  history := messages
  options := options
  turnId := options.conversationId.bind nonempty?
  supply := supply

/-- What the turn does next. -/
def action (turn : Turn) : TurnAction :=
  match turn.stage with
  | .asking => .ask turn.history turn.options
  | .listening => .pull
  | .delivering update => .deliver update
  | .checking _ _ => .check
  | .invoking call _ => .invoke call
  | .reporting update _ => .deliver update
  | .finished => .finish
  | .failed error => .fail error

/-- The turn at another stage. -/
def goTo (turn : Turn) (stage : TurnStage) : Turn :=
  { turn with stage }

/-- Choose the conversation id of the turn when its first update arrives. -/
def settle (turn : Turn) (update : Update) : Turn :=
  match turn.turnId with
  | some _ => turn
  | none =>
      let (id, supply) := turn.supply.orFresh update.conversationId
      { turn with turnId := some id, supply }

/-- Take an update of the call. -/
def receive (turn : Turn) (update : Update) : Turn :=
  let turn := turn.settle update
  let update := { update with conversationId := turn.turnId }
  { turn with received := turn.received ++ [update], stage := .delivering update }

/-- Make the next call, unless the turn has made as many as it may. -/
def again (turn : Turn) : Turn :=
  if turn.made + 1 < turn.limit then
    { turn with
      made := turn.made + 1
      options := { turn.options with conversationId := none }
      received := []
      stage := .asking }
  else
    turn.goTo .finished

/-- Run the functions that are left, then make the next call. -/
def runNext (turn : Turn) : List FunctionCall → Turn
  | [] => turn.again
  | call :: rest => turn.goTo (.checking call rest)

/-- Go on once a call has ended. -/
def close (turn : Turn) (canInvoke : String → Bool) : Turn :=
  let pending := pendingIn turn.received
  if pending.isEmpty || pending.any (fun call => !canInvoke call.name) then
    turn.goTo .finished
  else
    { turn with history := turn.history ++ historyFrom turn.received }.runNext pending

/-- Note the result of a function and hand it over. -/
def report
    (turn : Turn)
    (call : FunctionCall)
    (value : Payload)
    (rest : List FunctionCall) :
    Turn :=
  let item : ContentItem := .result ⟨call.callId, value⟩
  let (id, supply) := turn.supply.fresh
  let update : Update :=
    { role := .tool
      contents := [item]
      messageId := some id
      conversationId := turn.turnId }
  { turn with
    supply
    history := turn.history ++ [{ role := .tool, contents := [item] }]
    stage := .reporting update rest }

/-- Go on with an answer; one that does not belong to the action changes nothing. -/
def advance (turn : Turn) (canInvoke : String → Bool) (answer : TurnAnswer) : Turn :=
  match turn.stage, answer with
  | .finished, _ => turn
  | .failed _, _ => turn
  | _, .failed error => turn.goTo (.failed error)
  | .asking, .done => turn.goTo .listening
  | .listening, .update update => turn.receive update
  | .listening, .closed => turn.close canInvoke
  | .delivering _, .done => turn.goTo .listening
  | .checking call rest, .done => turn.goTo (.invoking call rest)
  | .invoking call rest, .returned value => turn.report call value rest
  | .reporting _ rest, .done => turn.runNext rest
  | _, _ => turn

end Turn

end AgentWire.Client

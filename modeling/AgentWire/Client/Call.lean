import AgentWire.Client.Controller
import AgentWire.Client.Identity
import AgentWire.Client.Inbound
import AgentWire.Client.Outbound

namespace AgentWire.Client

/-!
# A call to an agent

A call builds the request from the messages, follows the run through a
controller, and turns its events into updates.  Every update carries the
conversation id of the call.  Like the controller, a call is a machine.
-/

open Chat (ChatMessage ContentItem Registry Update)
open Resume (Progress)

/-- The error code of the update that tells of a restart. -/
def restartedCode : String := "run_restarted"

/-- The update that tells of a restart. -/
def restartedUpdate (lastNumber : UInt64) : Update where
  role := .assistant
  contents :=
    [.error
      ("The server restarted the run after sequence " ++ toString lastNumber.toNat
        ++ "; earlier output was abandoned")
      (some restartedCode)]

/-- What a call does next. -/
inductive CallAction where
  /-- An action of the controller. -/
  | follow (action : Action)
  /-- Look whether the call is cancelled. -/
  | check
  | deliver (update : Update)
  | finish
  | fail (error : ClientError)
  deriving Repr, DecidableEq

/-- What is settled for all calls of a client. -/
structure CallSettings where
  policy : RetryPolicy := {}
  registry : Registry := .empty

/-- Where a call stands. -/
inductive CallStage where
  /-- Follow the controller. -/
  | following
  | delivering (update : Update)
  | failed (error : ClientError)
  deriving Repr, DecidableEq

/-- A call that follows a run. -/
structure Call where
  controller : Controller
  identity : Identity
  inbound : Inbound := {}
  supply : IdSupply
  /-- The events that were handed to whoever listens to raw events, in order. -/
  tapped : List Event := []
  stage : CallStage := .following
  deriving Repr, DecidableEq

namespace Call

/-- The key of the progress of a call: the conversation's id, or else the run's. -/
def keyOf (options : Options) (input : RunInput) : String :=
  (options.conversationId.bind nonempty?).getD input.runId

/-- A call with these messages and options, unless no request can be built. -/
def start
    (settings : CallSettings)
    (messages : List ChatMessage)
    (options : Options)
    (supply : IdSupply) :
    Except ClientError Call := do
  let (input, supply) ← buildRunInput messages options settings.registry supply
  .ok
    { controller := { policy := settings.policy, key := keyOf options input, input }
      identity := .ofClient options.conversationId
      supply }

/-- What the call does next. -/
def action (call : Call) : CallAction :=
  match call.stage with
  | .delivering update => .deliver update
  | .failed error => .fail error
  | .following =>
      match call.controller.action with
      | .deliver _ => .check
      | .finish => .finish
      | .fail error => .fail error
      | action => .follow action

/-- Hand over an update under the call's conversation id. -/
def handOver (call : Call) (update : Update) : Call :=
  let (update, identity, supply) := call.identity.stamp call.supply update
  { call with identity, supply, stage := .delivering update }

/-- Go on with the controller once an item is done with. -/
def resume (call : Call) : Call :=
  { call with controller := call.controller.advance .done, stage := .following }

/-- Turn an item of the controller into at most one update. -/
def receive (call : Call) : Delivery → Call
  | .event event =>
      let call :=
        { call with
          tapped := call.tapped ++ [event]
          identity := call.identity.observe event }
      match call.inbound.apply event with
      | .error error => { call with stage := .failed error }
      | .ok (inbound, none) => resume { call with inbound }
      | .ok (inbound, some update) => handOver { call with inbound } update
  | .restarted lastNumber =>
      handOver { call with inbound := {} } (restartedUpdate lastNumber)

/-- Go on with an answer; one that does not belong to the action changes nothing. -/
def advance (call : Call) (answer : Answer) : Call :=
  match call.stage with
  | .delivering _ =>
      match answer with
      | .done => call.resume
      | _ => call
  | .failed _ => call
  | .following =>
      match call.controller.action with
      | .deliver item =>
          match answer with
          | .done => call.receive item
          | .failed error => { call with stage := .failed error }
          | _ => call
      | _ => { call with controller := call.controller.advance answer }

end Call

end AgentWire.Client

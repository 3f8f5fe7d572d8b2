import AgentWire.Client.Error
import AgentWire.Client.Retry
import AgentWire.Client.Transport
import AgentWire.Resume.Progress

namespace AgentWire.Client

/-!
# Keeping a run alive

A controller follows one run over as many connections as it takes.  It is a
machine: `action` says what it does next, and `advance` how it goes on with the
answer.  Progress is written to the store before an event is handed over, so a
consumer that goes away at any point can be served again from what is stored.
-/

open Resume (Progress)

/-- What a controlled stream hands over. -/
inductive Delivery where
  | event (event : Event)
  /-- The server has given up the run; what follows belongs to a fresh one. -/
  | restarted (lastNumber : UInt64)
  deriving Repr, DecidableEq

/-- What to do with an event that arrives. -/
inductive Admission where
  | forward
  | duplicate
  | restart
  deriving Repr, DecidableEq

/-- How an event fits behind the progress so far. -/
def admissionOf (progress : Progress) (event : Event) : Admission :=
  match event.sequenceNumber with
  | none => .forward
  | some number =>
      if number ≤ 1 ∧ 1 < progress.lastNumber then
        .restart
      else if number ≤ progress.lastNumber then
        .duplicate
      else
        .forward

/-- What a controller does next. -/
inductive Action where
  | load
  | save (progress : Progress)
  | append (event : Event) (lastNumber : UInt64)
  | clear
  | connect (request : Request)
  | read
  | wait (delay : Delay)
  | deliver (item : Delivery)
  | finish
  | fail (error : ClientError)
  deriving Repr, DecidableEq

/-- How the surroundings answer an action. -/
inductive Answer where
  /-- What the store holds. -/
  | loaded (progress : Option Progress)
  /-- It is done. -/
  | done
  /-- The connection hands over a frame. -/
  | frame (frame : Frame)
  /-- The connection has ended. -/
  | closed
  /-- It failed, or was cancelled. -/
  | failed (error : ClientError)
  deriving Repr, DecidableEq

/-- Where a controller stands. -/
inductive Stage where
  | loading
  /-- Hand over an event that was stored, then the others. -/
  | replaying (event : Event) (rest : List Event)
  | connecting
  /-- Clear the progress of a run that the server does not know any more. -/
  | forgetting
  /-- Tell that such a run was given up. -/
  | forgotten
  | reading
  /-- Clear the progress because an event starts the run anew. -/
  | restarting (event : Event)
  /-- Tell that the run was given up, then go on with the event. -/
  | restarted (lastNumber : UInt64) (event : Event)
  /-- Store all progress, then hand over the event. -/
  | saving (event : Event)
  /-- Store the event, then hand it over. -/
  | appending (event : Event)
  /-- Clear the progress, then hand over the last event. -/
  | settling (event : Event)
  | delivering (event : Event)
  /-- Clear the progress of a run that is complete. -/
  | closing
  | waiting (delay : Delay)
  | finished
  | failed (error : ClientError)
  deriving Repr, DecidableEq

/-- A controller of one run. -/
structure Controller where
  policy : RetryPolicy
  key : String
  input : RunInput
  progress : Progress := {}
  /-- Whether anything of the current run was handed over. -/
  delivered : Bool := false
  /-- How many failures there were since the last new event. -/
  failures : UInt32 := 0
  stage : Stage := .loading
  deriving Repr, DecidableEq

namespace Controller

/-- The request of the next connection. -/
def request (controller : Controller) : Request :=
  match controller.progress.responseId with
  | some responseId => .resume responseId controller.progress.lastNumber
  | none => .create controller.input

/-- What the controller does next. -/
def action (controller : Controller) : Action :=
  match controller.stage with
  | .loading => .load
  | .replaying event _ => .deliver (.event event)
  | .connecting => .connect controller.request
  | .forgetting => .clear
  | .forgotten => .deliver (.restarted controller.progress.lastNumber)
  | .reading => .read
  | .restarting _ => .clear
  | .restarted lastNumber _ => .deliver (.restarted lastNumber)
  | .saving _ => .save controller.progress
  | .appending event => .append event controller.progress.lastNumber
  | .settling _ => .clear
  | .delivering event => .deliver (.event event)
  | .closing => .clear
  | .waiting delay => .wait delay
  | .finished => .finish
  | .failed error => .fail error

/-- The controller at another stage. -/
def goTo (controller : Controller) (stage : Stage) : Controller :=
  { controller with stage }

/-- Hand over stored events, then connect. -/
def replay (controller : Controller) (events : List Event) : Controller :=
  match events with
  | [] => controller.goTo .connecting
  | event :: rest => controller.goTo (.replaying event rest)

/-- Start from what the store holds. -/
def begin (controller : Controller) (stored : Option Progress) : Controller :=
  let progress := stored.getD {}
  replay { controller with progress, delivered := !progress.events.isEmpty } progress.events

/-- Forget the run; the next connection starts a fresh one. -/
def forget (controller : Controller) : Controller :=
  { controller with progress := {}, delivered := false, stage := .connecting }

/-- Take an event as the next one of the run. -/
def accept (controller : Controller) (event : Event) : Controller :=
  let progress := controller.progress.record event
  { controller with
    progress
    delivered := true
    failures := 0
    stage :=
      if event.isTerminal then
        .settling event
      else if progress.responseId = controller.progress.responseId then
        .appending event
      else
        .saving event }

/-- Take an event that arrives. -/
def receive (controller : Controller) (event : Event) : Controller :=
  match admissionOf controller.progress event with
  | .duplicate => controller
  | .restart => controller.goTo (.restarting event)
  | .forward => controller.accept event

/-- Try again after a failure, or give up. -/
def interrupt (controller : Controller) (error : ClientError) : Controller :=
  let failures := controller.failures + 1
  { controller with
    failures
    stage :=
      if controller.policy.allows failures then
        .waiting (controller.policy.delayFor failures)
      else
        .failed (.retriesExhausted failures.toNat error) }

/-- The error of a connection that ends too early. -/
def endedEarly : ClientError :=
  .connection "event stream ended before the run completed"

/-- Go on after a failure of a connection. -/
def fallBack (controller : Controller) (error : ClientError) : Controller :=
  if error.isRetryable then controller.interrupt error else controller.goTo (.failed error)

/-- Go on after a connection could not be opened. -/
def refused (controller : Controller) (error : ClientError) : Controller :=
  match error, controller.request with
  | .transport 404 _, .resume _ _ => controller.goTo .forgetting
  | _, _ => controller.fallBack error

/-- Go on once a step that cannot be repeated is done. -/
def proceed (controller : Controller) (next : Controller) : Answer → Controller
  | .done => next
  | .failed error => controller.goTo (.failed error)
  | _ => controller

/-- Go on with an answer; one that does not belong to the action changes nothing. -/
def advance (controller : Controller) (answer : Answer) : Controller :=
  match controller.stage with
  | .loading =>
      match answer with
      | .loaded stored => controller.begin stored
      | .failed error => controller.goTo (.failed error)
      | _ => controller
  | .replaying _ rest => controller.proceed (controller.replay rest) answer
  | .connecting =>
      match answer with
      | .done => controller.goTo .reading
      | .failed error => controller.refused error
      | _ => controller
  | .forgetting =>
      let next := if controller.delivered then controller.goTo .forgotten else controller.forget
      controller.proceed next answer
  | .forgotten => controller.proceed controller.forget answer
  | .reading =>
      match answer with
      | .frame (.event event) => controller.receive event
      | .frame .done => controller.goTo .closing
      | .closed => controller.interrupt endedEarly
      | .failed error => controller.fallBack error
      | _ => controller
  | .restarting event =>
      let next := { controller with progress := {} }
      controller.proceed
        (next.goTo (.restarted controller.progress.lastNumber event)) answer
  | .restarted _ event => controller.proceed (controller.accept event) answer
  | .saving event => controller.proceed (controller.goTo (.delivering event)) answer
  | .appending event => controller.proceed (controller.goTo (.delivering event)) answer
  | .settling event => controller.proceed (controller.goTo (.delivering event)) answer
  | .delivering event =>
      let next := if event.isTerminal then Stage.closing else Stage.reading
      controller.proceed (controller.goTo next) answer
  | .closing => controller.proceed (controller.goTo .finished) answer
  | .waiting _ => controller.proceed (controller.goTo .connecting) answer
  | .finished => controller
  | .failed _ => controller

end Controller

end AgentWire.Client

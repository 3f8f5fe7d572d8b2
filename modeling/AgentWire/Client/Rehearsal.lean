import AgentWire.Client.Call
import AgentWire.Client.Turn
import AgentWire.Clock
import AgentWire.Resume.Store

namespace AgentWire.Client

/-!
# Rehearsals

A rehearsal plays a controller, a call or a turn against connections that were
prepared beforehand, on a clock that jumps over idle time.  It notes what is
asked of the store and of the connections, and what the consumer receives.
-/

open Chat (FunctionCall Payload Update)
open Resume (Progress Store)

/-- What a prepared connection does next. -/
abbrev Cue := Timed (Except ClientError Frame)

/-- A prepared connection: it is refused, or it has these cues and ends. -/
abbrev Connection := Except ClientError (List Cue)

/-- The operations of a store. -/
inductive StoreStep where
  | load
  | save
  | append
  | clear
  deriving Repr, DecidableEq

namespace StoreStep

/-- The name of an operation. -/
def name : StoreStep → String
  | .load => "load"
  | .save => "save"
  | .append => "append"
  | .clear => "clear"

/-- The operation of a name. -/
def ofName? (text : String) : Option StoreStep :=
  [load, save, append, clear].find? (·.name == text)

end StoreStep

/-- Something that was asked for or received. -/
inductive Note where
  | loaded (key : String)
  | saved (key : String) (progress : Progress)
  | appended (key : String) (event : Event) (lastNumber : UInt64)
  | cleared (key : String)
  | connected (request : Request) (time : Nat)
  | item (delivery : Delivery)
  | update (update : Update)
  | failed (error : ClientError)
  | invoked (call : FunctionCall)
  | ended
  deriving Repr

/-- The surroundings of a rehearsal. -/
structure Scene where
  clock : Clock := {}
  appetite : Appetite := {}
  store : Store := .memory []
  /-- The operation that the store refuses. -/
  refusing : Option StoreStep := none
  script : List Connection := []
  /-- How a connection is refused when no more are prepared. -/
  refusal : Request → ClientError := fun _ => .ofStatus 500 "script exhausted"
  current : List Cue := []
  /-- What was noted, the latest first. -/
  notes : List Note := []

namespace Scene

/-- Note something. -/
def note (scene : Scene) (note : Note) : Scene :=
  { scene with notes := note :: scene.notes }

/-- The answer of a store that gives nothing back. -/
def answerOf : Except ClientError Unit → Answer
  | .ok () => .done
  | .error error => .failed error

/-- Let the store do something, unless it refuses. -/
def useStore
    (scene : Scene)
    (step : StoreStep)
    (use : Store → Answer × Store) :
    Answer × Scene :=
  if scene.refusing = some step then
    (.failed (.storage (step.name ++ " refused")), scene)
  else
    let (answer, store) := use scene.store
    (answer, { scene with store })

/-- The next frame of the open connection. -/
def read (scene : Scene) : List Cue → Answer × Scene
  | [] => (.closed, { scene with current := [] })
  | .arrival (.ok frame) :: rest => (.frame frame, { scene with current := rest })
  | .arrival (.error error) :: rest => (.failed error, { scene with current := rest })
  | .pause milliseconds :: rest =>
      let (passed, clock) := scene.clock.wait milliseconds
      if passed then
        read { scene with clock } rest
      else
        (.failed .cancelled, { scene with clock, current := rest })

/-- Open the next prepared connection. -/
def connect (scene : Scene) (request : Request) : Answer × Scene :=
  let scene := scene.note (.connected request scene.clock.now)
  match scene.script with
  | [] => (.failed (scene.refusal request), scene)
  | .error error :: rest => (.failed error, { scene with script := rest })
  | .ok cues :: rest => (.done, { scene with script := rest, current := cues })

/-- Do what a controller asks for under a key. -/
def perform (scene : Scene) (key : String) : Action → Answer × Scene
  | .load =>
      (scene.note (.loaded key)).useStore .load fun store =>
        match store.load key with
        | (.ok progress, store) => (.loaded progress, store)
        | (.error error, store) => (.failed error, store)
  | .save progress =>
      (scene.note (.saved key progress)).useStore .save fun store =>
        let (result, store) := store.save key progress
        (answerOf result, store)
  | .append event lastNumber =>
      (scene.note (.appended key event lastNumber)).useStore .append fun store =>
        let (result, store) := store.append key event lastNumber
        (answerOf result, store)
  | .clear =>
      (scene.note (.cleared key)).useStore .clear fun store =>
        let (result, store) := store.clear key
        (answerOf result, store)
  | .connect request =>
      if scene.clock.cancelled then (.failed .cancelled, scene) else scene.connect request
  | .read =>
      if scene.clock.cancelled then (.failed .cancelled, scene) else scene.read scene.current
  | .wait delay =>
      let (passed, clock) := scene.clock.wait delay.milliseconds
      (if passed then .done else .failed .cancelled, { scene with clock })
  | .deliver _ | .finish | .fail _ => (.done, scene)

/-- Whether the token is cancelled, as an answer. -/
def checked (scene : Scene) : Answer :=
  if scene.clock.cancelled then .failed .cancelled else .done

/-- The consumer receives something. -/
def consume (scene : Scene) (note : Note) : Scene :=
  let (appetite, clock) := scene.appetite.take scene.clock
  { scene.note note with appetite, clock }

/-- The stream ends, with an error if there is one. -/
def close (scene : Scene) (error : Option ClientError) : Scene :=
  match error with
  | none => scene.note .ended
  | some error =>
      let scene := scene.consume (.failed error)
      if scene.appetite.isSated then scene else scene.note .ended

/-- What was noted, in order. -/
def history (scene : Scene) : List Note :=
  scene.notes.reverse

end Scene

/-- Play a controller for at most a number of steps. -/
def Controller.rehearse : Nat → Controller → Scene → Scene
  | 0, _, scene => scene
  | steps + 1, controller, scene =>
      match controller.action with
      | .finish => scene.close none
      | .fail error => scene.close (some error)
      | .deliver item =>
          let scene := scene.consume (.item item)
          if scene.appetite.isSated then
            scene
          else
            rehearse steps (controller.advance .done) scene
      | action =>
          let (answer, scene) := scene.perform controller.key action
          rehearse steps (controller.advance answer) scene

/-- Play a call for at most a number of steps; the result holds the events it tapped. -/
def Call.rehearse : Nat → Call → Scene → List Event × Scene
  | 0, call, scene => (call.tapped, scene)
  | steps + 1, call, scene =>
      match call.action with
      | .finish => (call.tapped, scene.close none)
      | .fail error => (call.tapped, scene.close (some error))
      | .check => rehearse steps (call.advance scene.checked) scene
      | .deliver update =>
          let scene := scene.consume (.update update)
          if scene.appetite.isSated then
            (call.tapped, scene)
          else
            rehearse steps (call.advance .done) scene
      | .follow action =>
          let (answer, scene) := scene.perform call.controller.key action
          rehearse steps (call.advance answer) scene

/-- The functions that can be run. -/
structure Functions where
  canInvoke : String → Bool
  invoke : FunctionCall → Except ClientError Payload

/-- What a turn is played with: its open call, and the events that earlier calls tapped. -/
structure Ensemble where
  turn : Turn
  call : Option Call := none
  tapped : List Event := []

namespace Ensemble

/-- The events that all calls have tapped. -/
def allTapped (ensemble : Ensemble) : List Event :=
  ensemble.tapped ++ ((ensemble.call.map Call.tapped).getD [])

/-- Go on with the turn. -/
def answer (ensemble : Ensemble) (functions : Functions) (answer : TurnAnswer) : Ensemble :=
  { ensemble with turn := ensemble.turn.advance functions.canInvoke answer }

/-- Start the next call of the turn. -/
def ask
    (ensemble : Ensemble)
    (settings : CallSettings)
    (functions : Functions)
    (messages : List Chat.ChatMessage)
    (options : Options) :
    Ensemble :=
  let supply := ensemble.turn.supply.branch ensemble.turn.made
  let ensemble := { ensemble with tapped := ensemble.allTapped, call := none }
  match Call.start settings messages options supply with
  | .ok call => { ensemble.answer functions .done with call := some call }
  | .error error => ensemble.answer functions (.failed error)

/-- Play one step of the open call for a turn that waits for its next update. -/
def pull
    (ensemble : Ensemble)
    (functions : Functions)
    (call : Call)
    (scene : Scene) :
    Ensemble × Scene :=
  match call.action with
  | .finish => (ensemble.answer functions .closed, scene)
  | .fail error => (ensemble.answer functions (.failed error), scene)
  | .check => ({ ensemble with call := some (call.advance scene.checked) }, scene)
  | .deliver update =>
      let ensemble := { ensemble with call := some (call.advance .done) }
      (ensemble.answer functions (.update update), scene)
  | .follow action =>
      let (answer, scene) := scene.perform call.controller.key action
      ({ ensemble with call := some (call.advance answer) }, scene)

/-- Play a turn for at most a number of steps; the result holds the events it tapped. -/
def rehearse
    (settings : CallSettings)
    (functions : Functions) :
    Nat → Ensemble → Scene → List Event × Scene
  | 0, ensemble, scene => (ensemble.allTapped, scene)
  | steps + 1, ensemble, scene =>
      match ensemble.turn.action with
      | .finish => (ensemble.allTapped, scene.close none)
      | .fail error => (ensemble.allTapped, scene.close (some error))
      | .ask messages options =>
          rehearse settings functions steps
            (ensemble.ask settings functions messages options) scene
      | .pull =>
          match ensemble.call with
          | none => (ensemble.allTapped, scene)
          | some call =>
              let (ensemble, scene) := ensemble.pull functions call scene
              rehearse settings functions steps ensemble scene
      | .deliver update =>
          let scene := scene.consume (.update update)
          if scene.appetite.isSated then
            (ensemble.allTapped, scene)
          else
            rehearse settings functions steps (ensemble.answer functions .done) scene
      | .check =>
          let answer :=
            if scene.clock.cancelled then TurnAnswer.failed .cancelled else .done
          rehearse settings functions steps (ensemble.answer functions answer) scene
      | .invoke call =>
          let scene := scene.note (.invoked call)
          let answer :=
            match functions.invoke call with
            | .ok value => TurnAnswer.returned value
            | .error error => .failed error
          rehearse settings functions steps (ensemble.answer functions answer) scene

end Ensemble

end AgentWire.Client

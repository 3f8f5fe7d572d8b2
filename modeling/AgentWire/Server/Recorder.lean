import AgentWire.Server.EventStream
import AgentWire.Server.RunStore

namespace AgentWire.Server

/-!
# Recorders

A recorder fills the log of a run from the stream of its agent, whether anybody
reads the log or not.  It goes by small steps, each of which touches the store at
most once, so that readers and other recorders may come in between.
-/

/-- What a recorder is about to do. -/
inductive RecorderStage where
  /-- Wait for the stream. -/
  | receiving
  /-- Let the log be found under the id that an event announces. -/
  | naming (runId : String) (event : Event)
  /-- Add an event to the log. -/
  | pushing (event : Event)
  /-- Tell the readers of an event. -/
  | announcing
  /-- Accept no more events. -/
  | closing
  /-- Tell the readers of the end. -/
  | reporting
  | done
  deriving Repr, DecidableEq

/-- Somebody who fills the log of a run. -/
structure Recorder where
  log : LogNumber
  runId : String
  source : EventStream
  /-- How long the log is kept when the run has ended. -/
  retention : Nat
  stage : RecorderStage := .receiving
  deriving Repr

namespace Recorder

/-- What is done first about an event of the stream. -/
def receive (recorder : Recorder) (event : Event) : RecorderStage :=
  match event.body with
  | .runStarted _ runId =>
      if runId = recorder.runId then .pushing event else .naming runId event
  | _ => .pushing event

/-- One step of a recorder; a pause of the stream is over with one step. -/
def step (store : RunStore) (recorder : Recorder) : RunStore × Recorder :=
  match recorder.stage with
  | .receiving =>
      match recorder.source with
      | [] => (store, { recorder with stage := .closing })
      | .pause _ :: rest => (store, { recorder with source := rest })
      | .arrival event :: rest =>
          (store, { recorder with source := rest, stage := recorder.receive event })
  | .naming runId event =>
      (store.enter runId recorder.log, { recorder with stage := .pushing event })
  | .pushing event =>
      if ((store.log? recorder.log).map RunLog.finished).getD true then
        (store, { recorder with stage := .closing })
      else
        (store.change recorder.log (·.push event), { recorder with stage := .announcing })
  | .announcing =>
      (store.change recorder.log RunLog.announce, { recorder with stage := .receiving })
  | .closing => (store.change recorder.log RunLog.close, { recorder with stage := .reporting })
  | .reporting => (store.change recorder.log RunLog.announce, { recorder with stage := .done })
  | .done => (store, recorder)

/-- How long a recorder waits before its next step. -/
def delay (recorder : Recorder) : Nat :=
  match recorder.stage, recorder.source with
  | .receiving, .pause milliseconds :: _ => milliseconds
  | _, _ => 0

/-- Whether a recorder has nothing left to do. -/
def isDone (recorder : Recorder) : Bool :=
  recorder.stage == .done

/-- Take at most a number of steps, until the recorder waits or is done. -/
def workFor : Nat → RunStore → Recorder → RunStore × Recorder
  | 0, store, recorder => (store, recorder)
  | steps + 1, store, recorder =>
      if recorder.isDone || recorder.delay != 0 then
        (store, recorder)
      else
        let (store, recorder) := recorder.step store
        workFor steps store recorder

/-- Take all steps until the recorder waits or is done. -/
def work (store : RunStore) (recorder : Recorder) : RunStore × Recorder :=
  workFor (4 * recorder.source.length + 8) store recorder

end Recorder

end AgentWire.Server

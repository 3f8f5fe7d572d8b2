import AgentWire.Client.Error
import AgentWire.Client.Transport
import AgentWire.Server.Agent
import AgentWire.Server.Archive

namespace AgentWire.Client

/-!
# An agent in the same process

A direct line runs an agent without a server between.  Runs are recorded as a
server records them, so they can be resumed, and their events are numbered.
-/

open Server (Agent Archive EventStream LogNumber ServerError)

/-- The error of a client whose request a server has rejected. -/
def rejected (error : ServerError) : ClientError :=
  .ofStatus error.status error.message

/-- An agent with the logs of its runs. -/
structure DirectLine where
  agent : Agent
  archive : Archive := {}
  /-- How long the log of a run is kept when the run has ended. -/
  retention : Nat := 300000
  supply : IdSupply := {}
  cancelled : Bool := false

namespace DirectLine

/-- Start a run; the result is the log of its events. -/
def create (line : DirectLine) (input : RunInput) : Except ClientError LogNumber × DirectLine :=
  let (input, supply) := Server.identified input line.supply
  match line.agent.answer input supply with
  | .error error => (.error (rejected error), { line with supply })
  | .ok (source, supply) =>
      let (log, archive) := line.archive.record input.runId source line.retention
      (.ok log, { line with archive, supply })

/-- Find the log of a run. -/
def find (line : DirectLine) (runId : String) : Except ClientError LogNumber :=
  match line.archive.store.number? runId with
  | some log => .ok log
  | none => .error (rejected (.runNotFound runId))

/-- What a connection hands over: the events, and the mark behind the last one. -/
def framesOf (events : List Event) (room : Option Nat) : List Frame :=
  let frames := events.map .event ++ [.done]
  match room with
  | none => frames
  | some room => frames.take room

/-- Follow a log behind the event with a number, for at most a number of frames. -/
def follow
    (line : DirectLine)
    (log : LogNumber)
    (number : Nat)
    (room : Option Nat) :
    List Frame × DirectLine :=
  if line.cancelled then
    ([], line)
  else
    let (stream, archive) := line.archive.follow log number room
    (framesOf stream.events room, { line with archive })

/-- Open a connection and take at most a number of frames. -/
def connect
    (line : DirectLine)
    (request : Request)
    (room : Option Nat) :
    Except ClientError (List Frame) × DirectLine :=
  let (found, number, line) :=
    match request with
    | .create input =>
        let (log, line) := line.create input
        (log, 0, line)
    | .resume runId number => (line.find runId, number.toNat, line)
  match found with
  | .error error => (.error error, line)
  | .ok log =>
      let (frames, line) := line.follow log number room
      (.ok frames, line)

/-- Let time pass. -/
def wait (line : DirectLine) (milliseconds : Nat) : DirectLine :=
  { line with archive := line.archive.wait milliseconds }

/-- Whether the log of a run can be found. -/
def has (line : DirectLine) (runId : String) : Bool :=
  (line.archive.store.number? runId).isSome

end DirectLine

end AgentWire.Client

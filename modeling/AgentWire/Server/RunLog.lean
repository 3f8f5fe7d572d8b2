import AgentWire.Event.Basic

namespace AgentWire.Server

/-!
# The log of a run

A log numbers the events of a run from one on and keeps them.  Whoever follows a
log reads what is new, hands it over event by event, and then waits for news.

Adding an event and telling the readers of it are two steps, and so is marking a
log as finished: a reader may come in between.
-/

/-- The events of one run so far. -/
structure RunLog where
  runId : String
  /-- The events, numbered from one on. -/
  events : List Event := []
  /-- Whether no event is accepted any more. -/
  finished : Bool := false
  /-- How often readers have been told of news. -/
  news : Nat := 0
  deriving Repr, DecidableEq

namespace RunLog

/-- How many events a log holds. -/
def size (log : RunLog) : Nat :=
  log.events.length

/-- Number an event and add it; an event that ends the run finishes the log. -/
def push (log : RunLog) (event : Event) : RunLog :=
  { log with
    events := log.events ++ [event.numbered (UInt64.ofNat (log.size + 1))]
    finished := event.isTerminal }

/-- Tell the readers that there is news. -/
def announce (log : RunLog) : RunLog :=
  { log with news := log.news + 1 }

/-- Accept no more events. -/
def close (log : RunLog) : RunLog :=
  { log with finished := true }

/-- Add an event and tell of it; a finished log accepts none. -/
def append (log : RunLog) (event : Event) : Option Nat × RunLog :=
  if log.finished then
    (none, log)
  else
    (some (log.size + 1), (log.push event).announce)

/-- Accept no more events and tell of it. -/
def finish (log : RunLog) : RunLog :=
  log.close.announce

/-- The events with greater numbers. -/
def eventsAfter (log : RunLog) (number : Nat) : List Event :=
  log.events.drop number

end RunLog

/-- What a reader of a log is about to do. -/
inductive ReaderStage where
  /-- Read what the log holds. -/
  | looking
  /-- Hand over these events; they may be the last ones. -/
  | handing (events : List Event) (last : Bool)
  /-- Wait for news. -/
  | waiting
  | ended
  deriving Repr, DecidableEq

/-- Somebody who follows a log. -/
structure Reader where
  /-- The number of the last event that was read. -/
  position : Nat
  /-- The news that the reader knows of. -/
  heard : Nat
  stage : ReaderStage := .looking
  deriving Repr, DecidableEq

namespace Reader

/-- A reader of the events of a log that have greater numbers. -/
def start (log : RunLog) (number : Nat) : Reader where
  position := number
  heard := log.news

/-- One step of a reader, with the event it hands over; none while it has to wait. -/
def step? (log : RunLog) (reader : Reader) : Option (Option Event × Reader) :=
  match reader.stage with
  | .looking =>
      let batch := log.eventsAfter reader.position
      some (none,
        { reader with
          position := reader.position + batch.length
          stage := .handing batch log.finished })
  | .handing (event :: rest) last =>
      some (some event, { reader with stage := .handing rest last })
  | .handing [] true => some (none, { reader with stage := .ended })
  | .handing [] false => some (none, { reader with stage := .waiting })
  | .waiting =>
      if reader.heard = log.news then
        none
      else
        some (none, { reader with heard := log.news, stage := .looking })
  | .ended => none

/-- Whether a reader is done. -/
def isEnded (reader : Reader) : Bool :=
  reader.stage == .ended

/-- The events that were read and not yet handed over. -/
def pending (reader : Reader) : List Event :=
  match reader.stage with
  | .handing events _ => events
  | _ => []

/-- Take at most a number of steps, and at most a number of events. -/
def pollFor (log : RunLog) : Nat → Nat → Reader → List Event × Reader
  | 0, _, reader => ([], reader)
  | steps + 1, room, reader =>
      if room = 0 then
        ([], reader)
      else
        match reader.step? log with
        | none => ([], reader)
        | some (none, reader) => pollFor log steps room reader
        | some (some event, reader) =>
            let (events, reader) := pollFor log steps (room - 1) reader
            (event :: events, reader)

/-- More steps than a reader of a log can take without waiting. -/
def stepBound (log : RunLog) (reader : Reader) : Nat :=
  reader.pending.length + log.size + 6

/-- The events that a reader gets without waiting, at most a number of them. -/
def take (log : RunLog) (room : Nat) (reader : Reader) : List Event × Reader :=
  pollFor log (reader.stepBound log) room reader

/-- All events that a reader gets without waiting. -/
def poll (log : RunLog) (reader : Reader) : List Event × Reader :=
  reader.take log (reader.stepBound log)

end Reader

end AgentWire.Server

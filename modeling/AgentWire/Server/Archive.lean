import AgentWire.Server.Recorder

namespace AgentWire.Server

/-!
# The archive of a server

An archive holds the logs of a server and does the work behind them: recorders
fill logs, and logs expire some time after their runs have ended.  Time stands
still until somebody waits, and whoever waits for a time goes on before the work
that is due at that time.
-/

/-- Work that goes on in the background. -/
inductive Duty where
  | record (recorder : Recorder)
  /-- Drop the log that is found under an id then. -/
  | expire (runId : String)
  deriving Repr

/-- Work with the time at which it goes on. -/
structure Task where
  due : Nat
  duty : Duty
  deriving Repr

namespace Task

/-- More turns than a task can take. -/
def turnBound (task : Task) : Nat :=
  match task.duty with
  | .record recorder => recorder.source.length + 2
  | .expire _ => 1

end Task

/-- The logs of a server, the time, and the work in the background. -/
structure Archive where
  now : Nat := 0
  store : RunStore := {}
  /-- The tasks, the one that has waited longest first. -/
  tasks : List Task := []
  deriving Repr

namespace Archive

/-- Let something be done at a time. -/
def schedule (archive : Archive) (due : Nat) (duty : Duty) : Archive :=
  { archive with tasks := archive.tasks ++ [⟨due, duty⟩] }

/-- Drop the log of a run when some time has passed. -/
def expireAfter (archive : Archive) (runId : String) (retention : Nat) : Archive :=
  archive.schedule (archive.now + retention) (.expire runId)

/-- Make the log of a run and record a stream into it in the background. -/
def record
    (archive : Archive)
    (runId : String)
    (source : EventStream)
    (retention : Nat) :
    LogNumber × Archive :=
  let (log, store) := archive.store.create runId
  (log,
   { archive with store }.schedule archive.now (.record { log, runId, source, retention }))

/-- Go on with the work of a task until it waits. -/
def perform (archive : Archive) : Duty → Archive
  | .expire runId => { archive with store := archive.store.remove runId }
  | .record recorder =>
      let (store, recorder) := recorder.work archive.store
      let archive := { archive with store }
      if recorder.isDone then
        archive.expireAfter recorder.runId recorder.retention
      else
        let due := archive.now + recorder.delay
        let (store, recorder) := recorder.step archive.store
        { archive with store }.schedule due (.record recorder)

/-- The first task that is due at a time, and the other tasks. -/
def dueTask? (time : Nat) : List Task → Option (Duty × List Task)
  | [] => none
  | task :: rest =>
      if task.due ≤ time then
        some (task.duty, rest)
      else
        (dueTask? time rest).map fun (duty, others) => (duty, task :: others)

/-- More turns than all tasks can take. -/
def turnBound (archive : Archive) : Nat :=
  archive.tasks.foldr (fun task turns => task.turnBound + turns) 0

/-- Do at most a number of tasks that are due now. -/
def settleFor : Nat → Archive → Archive
  | 0, archive => archive
  | turns + 1, archive =>
      match dueTask? archive.now archive.tasks with
      | none => archive
      | some (duty, tasks) => settleFor turns ({ archive with tasks }.perform duty)

/-- Do all that is due now. -/
def settle (archive : Archive) : Archive :=
  settleFor archive.turnBound archive

/-- The time of the next task. -/
def nextDue? (archive : Archive) : Option Nat :=
  (archive.tasks.map Task.due).min?

/-- Let time pass until the next task is due, and do all that is due then. -/
def advance? (archive : Archive) : Option Archive :=
  archive.nextDue?.map fun due => { archive with now := max archive.now due }.settle

/-- Do all that is due before a time, at most a number of times. -/
def workUntil (time : Nat) : Nat → Archive → Archive
  | 0, archive => archive
  | rounds + 1, archive =>
      match archive.nextDue? with
      | none => archive
      | some due =>
          if due < time then
            match archive.advance? with
            | none => archive
            | some archive => workUntil time rounds archive
          else
            archive

/-- Wait for some time while the work goes on. -/
def wait (archive : Archive) (milliseconds : Nat) : Archive :=
  let time := archive.now + milliseconds
  if milliseconds = 0 then
    archive
  else
    { archive.workUntil time archive.turnBound with now := time }

/-- Follow a log for at most a number of rounds; pauses stand where time has passed. -/
def followFor
    (log : LogNumber) :
    Nat → Nat → Reader → Archive → EventStream × Archive
  | 0, _, _, archive => ([], archive)
  | rounds + 1, room, reader, archive =>
      match archive.store.log? log with
      | none => ([], archive)
      | some found =>
          let (events, reader) := reader.take found room
          if reader.isEnded || events.length = room then
            (events.map .arrival, archive)
          else
            match archive.advance? with
            | none => (events.map .arrival, archive)
            | some later =>
                let (stream, last) := followFor log rounds (room - events.length) reader later
                (events.map .arrival ++ .pause (later.now - archive.now) :: stream, last)

/--
Follow a log behind the event with a number while the work goes on, until it is
finished or enough events are there.
-/
def follow
    (archive : Archive)
    (log : LogNumber)
    (number : Nat)
    (room : Option Nat) :
    EventStream × Archive :=
  match archive.store.log? log with
  | none => ([], archive)
  | some found =>
      let reader := Reader.start found number
      followFor log (archive.turnBound + 2)
        (room.getD (archive.turnBound + found.size + 1)) reader archive

end Archive

end AgentWire.Server

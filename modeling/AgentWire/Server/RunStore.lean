import AgentWire.Dictionary
import AgentWire.Server.RunLog

namespace AgentWire.Server

/-!
# The logs of a server

A log is found under one or more ids.  Logs are told apart by a number that is
never given again, so that two runs with one id have two logs.
-/

/-- The number that tells a log from all others. -/
abbrev LogNumber := Nat

/-- All logs that were made, and the ids under which some of them are found. -/
structure RunStore where
  /-- The logs in the order of their numbers. -/
  logs : List RunLog := []
  names : Dictionary LogNumber := []
  deriving Repr, DecidableEq

namespace RunStore

/-- The log with a number. -/
def log? (store : RunStore) (number : LogNumber) : Option RunLog :=
  store.logs[number]?

/-- The number of the log that is found under an id. -/
def number? (store : RunStore) (id : String) : Option LogNumber :=
  store.names.get? id

/-- The log that is found under an id. -/
def find? (store : RunStore) (id : String) : Option RunLog :=
  (store.number? id).bind store.log?

/-- Make a log that is not found under any id. -/
def make (store : RunStore) (runId : String) : LogNumber × RunStore :=
  (store.logs.length, { store with logs := store.logs ++ [{ runId }] })

/-- Let a log be found under an id as well, whatever was found there before. -/
def enter (store : RunStore) (id : String) (number : LogNumber) : RunStore :=
  { store with names := store.names.insert id number }

/-- Make a log that is found under the id of its run. -/
def create (store : RunStore) (runId : String) : LogNumber × RunStore :=
  let (number, store) := store.make runId
  (number, store.enter runId number)

/-- Drop every id of the log that is found under an id. -/
def remove (store : RunStore) (id : String) : RunStore :=
  match store.number? id with
  | none => store
  | some number => { store with names := store.names.filter (·.2 != number) }

/-- Change a log. -/
def change (store : RunStore) (number : LogNumber) (act : RunLog → RunLog) : RunStore :=
  { store with logs := store.logs.modify number act }

end RunStore

end AgentWire.Server

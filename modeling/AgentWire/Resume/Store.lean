import AgentWire.Resume.Files
import AgentWire.Resume.Memory

namespace AgentWire.Resume

/-!
# Stores

Progress is kept in memory or in files; both are used in the same way.
-/

open Client (ClientError)

/-- A store of progress. -/
inductive Store where
  | memory (entries : Memory)
  | files (place : Files)
  deriving Repr, DecidableEq

namespace Store

/-- The progress under a key. -/
def load (store : Store) (key : String) : Except ClientError (Option Progress) × Store :=
  match store with
  | .memory entries => (.ok (entries.load key), store)
  | .files place =>
      match place.load key with
      | .ok (progress, place) => (.ok progress, .files place)
      | .error error => (.error error, store)

/-- Replace the progress under a key. -/
def save (store : Store) (key : String) (progress : Progress) : Except ClientError Unit × Store :=
  match store with
  | .memory entries => (.ok (), .memory (entries.save key progress))
  | .files place =>
      let (result, place) := place.save key progress
      (result, .files place)

/-- Add an event to the progress under a key. -/
def append
    (store : Store)
    (key : String)
    (event : Event)
    (lastNumber : UInt64) :
    Except ClientError Unit × Store :=
  match store with
  | .memory entries => (.ok (), .memory (entries.append key event lastNumber))
  | .files place =>
      let (result, place) := place.append key event lastNumber
      (result, .files place)

/-- Drop the progress under a key. -/
def clear (store : Store) (key : String) : Except ClientError Unit × Store :=
  match store with
  | .memory entries => (.ok (), .memory (entries.clear key))
  | .files place =>
      match place.clear key with
      | .ok place => (.ok (), .files place)
      | .error error => (.error error, store)

end Store

end AgentWire.Resume

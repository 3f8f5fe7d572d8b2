import AgentWire.Dictionary
import AgentWire.Resume.Progress

namespace AgentWire.Resume

/-!
# Progress in memory

One entry for each key.  Writing to a key leaves all others alone.
-/

/-- The progress of several runs, by key. -/
abbrev Memory := Dictionary Progress

namespace Memory

/-- The progress under a key. -/
def load (memory : Memory) (key : String) : Option Progress :=
  Dictionary.get? memory key

/-- Replace the progress under a key. -/
def save (memory : Memory) (key : String) (progress : Progress) : Memory :=
  Dictionary.insert key progress memory

/-- Add an event to the progress under a key, which may be new. -/
def append
    (memory : Memory)
    (key : String)
    (event : Event)
    (lastNumber : UInt64) :
    Memory :=
  memory.save key (((memory.load key).getD {}).recordAt event lastNumber)

/-- Drop the progress under a key. -/
def clear (memory : Memory) (key : String) : Memory :=
  Dictionary.erase memory key

end Memory

end AgentWire.Resume

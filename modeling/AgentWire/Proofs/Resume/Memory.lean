import AgentWire.Proofs.Dictionary
import AgentWire.Resume.Memory

namespace AgentWire.Resume.Memory

/-!
# What a store in memory holds

A key reads back what was last written under it, and writing under one key
leaves all others alone.
-/

@[simp] theorem load_save
    (memory : Memory)
    (key : String)
    (progress : Progress) :
    (memory.save key progress).load key = some progress :=
  Dictionary.get?_insert_self key progress memory

theorem load_save_of_ne
    {key other : String}
    (different : other ≠ key)
    (memory : Memory)
    (progress : Progress) :
    (memory.save key progress).load other = memory.load other :=
  Dictionary.get?_insert_of_ne different progress memory

/-- A key to which an event was appended reads back its progress with that event. -/
@[simp] theorem load_append
    (memory : Memory)
    (key : String)
    (event : Event)
    (lastNumber : UInt64) :
    (memory.append key event lastNumber).load key =
      some (((memory.load key).getD {}).recordAt event lastNumber) :=
  load_save memory key _

@[simp] theorem load_clear
    (memory : Memory)
    (key : String) :
    (memory.clear key).load key = none :=
  Dictionary.get?_erase_self memory key

theorem load_clear_of_ne
    {key other : String}
    (different : other ≠ key)
    (memory : Memory) :
    (memory.clear key).load other = memory.load other :=
  Dictionary.get?_erase_of_ne different memory

end AgentWire.Resume.Memory

import AgentWire.Proofs.Dictionary
import AgentWire.Proofs.Server.Recorder

namespace AgentWire.Server.RunStore

/-!
# Logs and their ids

What the changes of a store do to the log that is found under an id.  An id is
entered for one log and taken from whatever log was found there before; a log is
dropped with all its ids, and it is the log that is found under the id then.
-/

/-- The ids are in order, and each leads to a log that was made. -/
structure WellFormed (store : RunStore) : Prop where
  sorted : (store.names.map (·.1)).Pairwise (· < ·)
  made : ∀ id number, store.number? id = some number → number < store.logs.length

/-- No id leads to a log any more, and every other id leads where it led. -/
def Drops (log : LogNumber) (before after : RunStore) : Prop :=
  ∀ id, after.number? id = if before.number? id = some log then none else before.number? id

/-- A log that was made and accepts no more events. -/
def Finished (store : RunStore) (number : LogNumber) : Prop :=
  ∃ log, store.log? number = some log ∧ log.finished = true

section Ids

variable
  {store : RunStore}
  {number other : LogNumber}
  {id name : String}

@[simp] theorem number?_enter_self : (store.enter id number).number? id = some number :=
  Dictionary.get?_insert_self ..

@[simp] theorem number?_enter_of_ne (different : name ≠ id) :
    (store.enter id number).number? name = store.number? name :=
  Dictionary.get?_insert_of_ne different ..

@[simp] theorem number?_create_self :
    (store.create id).2.number? id = some store.logs.length :=
  Dictionary.get?_insert_self ..

@[simp] theorem number?_create_of_ne (different : name ≠ id) :
    (store.create id).2.number? name = store.number? name :=
  Dictionary.get?_insert_of_ne different ..

@[simp] theorem number?_change (act : RunLog → RunLog) :
    (store.change number act).number? name = store.number? name :=
  rfl

theorem log?_change_of_ne
    (different : other ≠ number)
    (act : RunLog → RunLog) :
    (store.change number act).log? other = store.log? other := by
  simp [change, log?, different.symm]

/-- A number that was given has a log. -/
theorem exists_log? (made : number < store.logs.length) :
    ∃ log, store.log? number = some log :=
  ⟨store.logs[number], List.getElem?_eq_getElem made⟩

/-- A new log is entered under its id, and the other ids lead where they led. -/
theorem number?_eq_or_of_create
    (store : RunStore)
    (id name : String) :
    (store.create id).2.number? name = store.number? name ∨
      name = id ∧ (store.create id).2.number? name = some store.logs.length := by
  by_cases same : name = id
  · subst same
    exact .inr ⟨rfl, number?_create_self⟩
  · exact .inl (number?_create_of_ne same)

/-- Whatever log is found under an id loses all its ids, and no other log loses any. -/
theorem number?_remove (sorted : (store.names.map (·.1)).Pairwise (· < ·)) :
    (store.remove id).number? name =
      if store.number? name = store.number? id then none else store.number? name := by
  have different : (store.names.map (·.1)).Nodup := Dictionary.nodup_of_pairwise sorted
  unfold remove
  cases found : store.number? id with
  | none =>
      cases store.number? name <;> simp
  | some number =>
      have kept :
          ({ store with names := store.names.filter (·.2 != number) } : RunStore).number? name =
            (store.number? name).filter (· != number) :=
        Dictionary.get?_filter different (· != number) name
      rw [kept]
      cases store.number? name with
      | none => rfl
      | some other => by_cases same : other = number <;> simp [Option.filter, same]

/-- Removing a log drops all ids that lead to it. -/
theorem drops_remove
    (wellFormed : store.WellFormed)
    (found : store.number? id = some number) :
    Drops number store (store.remove id) := by
  intro name
  rw [number?_remove wellFormed.sorted, found]

/-- Removing a log lets an id lead nowhere or where it led. -/
theorem number?_eq_or_of_remove (wellFormed : store.WellFormed) :
    (store.remove id).number? name = store.number? name ∨
      (store.remove id).number? name = none := by
  rw [number?_remove wellFormed.sorted]
  split
  · exact .inr rfl
  · exact .inl rfl

theorem length_create : (store.create id).2.logs.length = store.logs.length + 1 := by
  simp [create, make, enter]

theorem length_remove : (store.remove id).logs.length = store.logs.length := by
  unfold remove
  split <;> rfl

/-- A finished log stays finished when another one is made. -/
theorem finished_create (finished : store.Finished number) :
    (store.create id).2.Finished number := by
  obtain ⟨log, found, ended⟩ := finished
  refine ⟨log, ?_, ended⟩
  have made : number < store.logs.length := (List.getElem?_eq_some_iff.mp found).1
  rw [← found]
  simp [create, make, enter, log?, List.getElem?_append_left made]

/-- A finished log stays finished when ids are dropped. -/
theorem finished_remove (finished : store.Finished number) :
    (store.remove id).Finished number := by
  obtain ⟨log, found, ended⟩ := finished
  refine ⟨log, ?_, ended⟩
  unfold remove
  split <;> exact found

end Ids

namespace WellFormed

variable
  {store : RunStore}
  {number : LogNumber}
  {id : String}

theorem empty : WellFormed {} where
  sorted := .nil
  made := nofun

/-- Entering a log that was made leaves the store well-formed. -/
theorem enter
    (wellFormed : store.WellFormed)
    (made : number < store.logs.length) :
    (store.enter id number).WellFormed where
  sorted := Dictionary.pairwise_insert wellFormed.sorted id number
  made := by
    intro name other found
    by_cases same : name = id
    · subst same
      rw [number?_enter_self, Option.some.injEq] at found
      exact found ▸ made
    · rw [number?_enter_of_ne same] at found
      exact wellFormed.made name other found

/-- Making a log leaves the store well-formed. -/
theorem create (wellFormed : store.WellFormed) : (store.create id).2.WellFormed := by
  have more : store.logs.length ≤ (store.make id).2.logs.length := by simp [make]
  have larger : (store.make id).2.WellFormed :=
    ⟨wellFormed.sorted, fun name number found =>
      Nat.lt_of_lt_of_le (wellFormed.made name number found) more⟩
  exact larger.enter (by simp [make])

/-- Changing a log leaves the store well-formed. -/
theorem change
    (wellFormed : store.WellFormed)
    (act : RunLog → RunLog) :
    (store.change number act).WellFormed where
  sorted := wellFormed.sorted
  made := by
    intro name other found
    simpa [RunStore.change] using wellFormed.made name other found

/-- Removing a log leaves the store well-formed. -/
theorem remove (wellFormed : store.WellFormed) : (store.remove id).WellFormed where
  sorted := by
    unfold RunStore.remove
    split
    · exact wellFormed.sorted
    · exact wellFormed.sorted.sublist (List.filter_sublist.map _)
  made := by
    intro name number found
    rw [length_remove]
    rcases number?_eq_or_of_remove wellFormed with kept | gone
    · exact wellFormed.made name number (kept ▸ found)
    · rw [gone] at found
      cases found

end WellFormed

end AgentWire.Server.RunStore

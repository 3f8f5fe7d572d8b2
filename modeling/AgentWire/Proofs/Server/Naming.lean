import AgentWire.Proofs.Server.RunStore

namespace AgentWire.Server

/-!
# The ids that a recorder enters

A recorder enters its log under the ids that the stream announces, and touches the
ids of no other log.  What it has still to enter gets less with every step, and when
it has closed its log that log is finished.
-/

/-- The id that an event announces. -/
def announcedId? (event : Event) : Option String :=
  match event.body with
  | .runStarted _ runId => some runId
  | _ => none

/-- The ids that events announce. -/
def announced (events : List Event) : List String :=
  events.filterMap announcedId?

namespace Recorder

/-- The ids that a recorder may still enter for its log. -/
def names (recorder : Recorder) : List String :=
  match recorder.stage with
  | .naming runId _ => runId :: announced recorder.source.events
  | _ => announced recorder.source.events

/-- A recorder that has closed its log. -/
def Closed (recorder : Recorder) : Prop :=
  recorder.stage = .reporting ∨ recorder.stage = .done

end Recorder

section Steps

variable
  {recorder next : Recorder}
  {store : RunStore}
  {log changed : RunLog}
  {number : LogNumber}

namespace Recorder

/-- A step of a recorder enters an id for its log, changes its log, or leaves the store. -/
theorem store_step
    (recorder : Recorder)
    (store : RunStore) :
    (recorder.step store).1 = store ∨
      (∃ runId event,
        recorder.stage = .naming runId event ∧
          (recorder.step store).1 = store.enter runId recorder.log) ∨
      ∃ act, (recorder.step store).1 = store.change recorder.log act := by
  cases stage : recorder.stage with
  | receiving =>
      left
      simp only [step, stage]
      split <;> rfl
  | naming runId event =>
      refine .inr (.inl ⟨runId, event, rfl, ?_⟩)
      simp [step, stage]
  | pushing event =>
      simp only [step, stage]
      split
      · exact .inl rfl
      · exact .inr (.inr ⟨_, rfl⟩)
  | announcing => exact .inr (.inr ⟨RunLog.announce, by simp [step, stage]⟩)
  | closing => exact .inr (.inr ⟨RunLog.close, by simp [step, stage]⟩)
  | reporting => exact .inr (.inr ⟨RunLog.announce, by simp [step, stage]⟩)
  | done => exact .inl (by simp [step, stage])

/-- A recorder keeps to its log. -/
theorem log_step (made : recorder.log < store.logs.length) :
    (recorder.step store).2.log = recorder.log := by
  obtain ⟨log, found⟩ := RunStore.exists_log? made
  obtain ⟨changed, -, moves⟩ := step_moves found
  exact moves.same_log

/-- A recorder makes no further logs. -/
theorem length_step
    (recorder : Recorder)
    (store : RunStore) :
    (recorder.step store).1.logs.length = store.logs.length := by
  rcases recorder.store_step store with same | ⟨runId, event, -, same⟩ | ⟨act, same⟩
  · rw [same]
  · rw [same]
    rfl
  · rw [same, RunStore.change, List.length_modify]

/-- A recorder leaves the store well-formed. -/
theorem wellFormed_step
    (wellFormed : store.WellFormed)
    (made : recorder.log < store.logs.length) :
    (recorder.step store).1.WellFormed := by
  rcases recorder.store_step store with same | ⟨runId, event, -, same⟩ | ⟨act, same⟩
  · rwa [same]
  · rw [same]
    exact wellFormed.enter made
  · rw [same]
    exact wellFormed.change act

/-- An id keeps its log, or it is one that the recorder enters for its own log. -/
theorem number?_step
    (recorder : Recorder)
    (store : RunStore)
    (id : String) :
    (recorder.step store).1.number? id = store.number? id ∨
      id ∈ recorder.names ∧ (recorder.step store).1.number? id = some recorder.log := by
  rcases recorder.store_step store with same | ⟨runId, event, stage, same⟩ | ⟨act, same⟩
  · exact .inl (by rw [same])
  · rw [same]
    by_cases entered : id = runId
    · subst entered
      exact .inr ⟨by simp [names, stage], RunStore.number?_enter_self⟩
    · exact .inl (RunStore.number?_enter_of_ne entered)
  · exact .inl (by rw [same, RunStore.number?_change])

/-- A log stays finished, whichever recorder goes on. -/
theorem finished_step (finished : store.Finished number) :
    (recorder.step store).1.Finished number := by
  obtain ⟨log, found, ended⟩ := finished
  by_cases own : recorder.log = number
  · subst own
    obtain ⟨changed, stored, moves⟩ := step_moves found
    exact ⟨changed, stored, (moves.keeps_finished ended).2⟩
  · refine ⟨log, ?_, ended⟩
    rcases recorder.store_step store with same | ⟨runId, event, -, same⟩ | ⟨act, same⟩
    · rwa [same]
    · rwa [same]
    · rw [same, RunStore.log?_change_of_ne (Ne.symm own)]
      exact found

namespace Moves

/-- A recorder keeps the id and the retention of its run. -/
theorem same_run (moves : recorder.Moves log next changed) :
    next.runId = recorder.runId ∧ next.retention = recorder.retention := by
  cases moves <;> exact ⟨rfl, rfl⟩

/-- No ids come up that the stream does not announce. -/
theorem names_subset (moves : recorder.Moves log next changed) :
    next.names ⊆ recorder.names := by
  cases moves with
  | @receive event later stage source =>
      have ahead : recorder.names = announced ([event] ++ later.events) := by
        simp [names, stage, source, EventStream.events]
      rw [ahead, announced, List.filterMap_append]
      rcases recorder.receive_cases event with shape | ⟨threadId, runId, body, shape⟩
      · rw [names, shape]
        exact List.subset_append_right _ _
      · simp [names, shape, announcedId?, body, announced]
  | rest stage source => simp [names, stage, source, EventStream.events]
  | name stage => simp [names, stage]
  | stay stage => exact List.Subset.refl _
  | _ => simp [names, *]

/-- Behind the end of a recording the log is finished. -/
theorem closed
    (moves : recorder.Moves log next changed)
    (before : recorder.Closed → log.finished = true)
    (closed : next.Closed) :
    changed.finished = true := by
  cases moves with
  | close stage => rfl
  | report stage => exact before (.inl stage)
  | stay stage => exact before (.inr stage)
  | @receive event later stage source =>
      rcases recorder.receive_cases event with shape | ⟨threadId, runId, body, shape⟩ <;>
        simp [Closed, shape] at closed
  | rest stage source => simp [Closed, stage] at closed
  | _ => simp [Closed] at closed

end Moves

/-- A recorder is done only when its log is finished. -/
theorem closed_step
    (made : recorder.log < store.logs.length)
    (before : recorder.Closed → store.Finished recorder.log)
    (closed : (recorder.step store).2.Closed) :
    (recorder.step store).1.Finished recorder.log := by
  obtain ⟨log, found⟩ := RunStore.exists_log? made
  obtain ⟨changed, stored, moves⟩ := step_moves found
  refine ⟨changed, stored, moves.closed (fun earlier => ?_) closed⟩
  obtain ⟨other, kept, finished⟩ := before earlier
  rw [found, Option.some.injEq] at kept
  exact kept ▸ finished

end Recorder

end Steps

end AgentWire.Server

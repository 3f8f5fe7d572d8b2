import AgentWire.Resume.Progress
import Mathlib.Data.List.Induction

namespace AgentWire.Resume.Progress

/-!
# Progress as a fold of events

The progress that a run has made is determined by the events that were
delivered: each member is read off the last event that says something about it.
-/

/-- The progress that some events make, from nothing. -/
def ofEvents (events : List Event) : Progress :=
  events.foldl record {}

@[simp] theorem ofEvents_nil : ofEvents [] = {} :=
  rfl

/-- The progress of events is that of all but the last one, with the last one recorded. -/
theorem ofEvents_concat
    (events : List Event)
    (event : Event) :
    ofEvents (events ++ [event]) = (ofEvents events).record event := by
  simp [ofEvents]

@[simp] theorem record_events
    (progress : Progress)
    (event : Event) :
    (progress.record event).events = progress.events ++ [event] :=
  rfl

/-- An event that is noted is one more. -/
theorem recordAt_ne
    (progress : Progress)
    (event : Event)
    (lastNumber : UInt64) :
    progress.recordAt event lastNumber ≠ progress := by
  intro same
  have events := congrArg (·.events.length) same
  simp [recordAt] at events

@[simp] theorem record_lastNumber
    (progress : Progress)
    (event : Event) :
    (progress.record event).lastNumber =
      event.sequenceNumber.getD progress.lastNumber :=
  rfl

/-- Recording an event at the number that it leads to is recording it. -/
@[simp] theorem recordAt_record_lastNumber
    (progress : Progress)
    (event : Event) :
    progress.recordAt event (progress.record event).lastNumber =
      progress.record event :=
  rfl

/-- The last value of a list to which one optional value is added. -/
private theorem getLast?_filterMap_concat
    {α β : Type}
    (extract : α → Option β)
    (items : List α)
    (item : α) :
    ((items ++ [item]).filterMap extract).getLast? =
      (extract item).or (items.filterMap extract).getLast? := by
  cases extracted : extract item <;>
    simp [List.filterMap_append, extracted]

/-- The events of a fold are the events that were folded. -/
@[simp] theorem ofEvents_events (events : List Event) :
    (ofEvents events).events = events := by
  induction events using List.reverseRecOn with
  | nil =>
      rfl
  | append_singleton rest event inductionHypothesis =>
      rw [ofEvents_concat, record_events, inductionHypothesis]

/-- The run's id is the last one that an event announces. -/
theorem ofEvents_responseId (events : List Event) :
    (ofEvents events).responseId =
      (events.filterMap (announcedId? ·.body)).getLast? := by
  induction events using List.reverseRecOn with
  | nil =>
      rfl
  | append_singleton rest event inductionHypothesis =>
      rw [ofEvents_concat, getLast?_filterMap_concat, ← inductionHypothesis]
      rfl

/-- The last message is the last one that an event starts. -/
theorem ofEvents_lastMessageId (events : List Event) :
    (ofEvents events).lastMessageId =
      (events.filterMap (startedMessage? ·.body)).getLast? := by
  induction events using List.reverseRecOn with
  | nil =>
      rfl
  | append_singleton rest event inductionHypothesis =>
      rw [ofEvents_concat, getLast?_filterMap_concat, ← inductionHypothesis]
      rfl

/-- The last number is that of the last event with one, or zero. -/
theorem ofEvents_lastNumber (events : List Event) :
    (ofEvents events).lastNumber =
      (events.filterMap (·.sequenceNumber)).getLast?.getD 0 := by
  induction events using List.reverseRecOn with
  | nil =>
      rfl
  | append_singleton rest event inductionHypothesis =>
      rw [ofEvents_concat, getLast?_filterMap_concat, record_lastNumber,
        inductionHypothesis]
      cases event.sequenceNumber <;> rfl

/-- Progress with some events noted, each at the number that was given for it. -/
def recordAll
    (progress : Progress)
    (entries : List (Event × UInt64)) :
    Progress :=
  entries.foldl (fun progress entry => progress.recordAt entry.1 entry.2) progress

theorem recordAll_append
    (progress : Progress)
    (first second : List (Event × UInt64)) :
    progress.recordAll (first ++ second) = (progress.recordAll first).recordAll second := by
  simp [recordAll]

theorem recordAll_concat
    (progress : Progress)
    (entries : List (Event × UInt64))
    (event : Event)
    (lastNumber : UInt64) :
    progress.recordAll (entries ++ [(event, lastNumber)]) =
      (progress.recordAll entries).recordAt event lastNumber :=
  progress.recordAll_append entries [(event, lastNumber)]

/-- Recording entries adds their events. -/
theorem recordAll_events
    (progress : Progress)
    (entries : List (Event × UInt64)) :
    (progress.recordAll entries).events = progress.events ++ entries.map (·.1) := by
  induction entries using List.reverseRecOn with
  | nil =>
      simp [recordAll]
  | append_singleton rest entry inductionHypothesis =>
      rw [recordAll_concat, recordAt, record_events, inductionHypothesis]
      simp

/-- The run of some progress is the last one that was announced. -/
theorem recordAll_responseId
    (progress : Progress)
    (entries : List (Event × UInt64)) :
    (progress.recordAll entries).responseId =
      (entries.filterMap (announcedId? ·.1.body)).getLast?.or progress.responseId := by
  induction entries using List.reverseRecOn with
  | nil =>
      rfl
  | append_singleton rest entry inductionHypothesis =>
      rw [recordAll_concat, getLast?_filterMap_concat, Option.or_assoc, ← inductionHypothesis]
      rfl

/-- The message of some progress is the last one that was started. -/
theorem recordAll_lastMessageId
    (progress : Progress)
    (entries : List (Event × UInt64)) :
    (progress.recordAll entries).lastMessageId =
      (entries.filterMap (startedMessage? ·.1.body)).getLast?.or progress.lastMessageId := by
  induction entries using List.reverseRecOn with
  | nil =>
      rfl
  | append_singleton rest entry inductionHypothesis =>
      rw [recordAll_concat, getLast?_filterMap_concat, Option.or_assoc, ← inductionHypothesis]
      rfl

/-- Noting events at the number that is there already leaves it. -/
theorem recordAll_lastNumber
    (progress : Progress)
    (events : List Event) :
    (progress.recordAll (events.map (·, progress.lastNumber))).lastNumber =
      progress.lastNumber := by
  rcases List.eq_nil_or_concat events with rfl | ⟨before, last, rfl⟩
  · rfl
  · rw [List.concat_eq_append, List.map_append, List.map_singleton, recordAll_concat]
    rfl

/-- Progress whose ids are those that its own events give. -/
structure Consistent (progress : Progress) : Prop where
  responseId :
    progress.responseId = (progress.events.filterMap (announcedId? ·.body)).getLast?
  lastMessageId :
    progress.lastMessageId = (progress.events.filterMap (startedMessage? ·.body)).getLast?

/-- The progress of events is consistent. -/
theorem consistent_ofEvents (events : List Event) : (ofEvents events).Consistent := by
  constructor
  · rw [ofEvents_events, ofEvents_responseId]
  · rw [ofEvents_events, ofEvents_lastMessageId]

/-- Progress stays consistent with every event that is recorded. -/
theorem Consistent.recordAt
    {progress : Progress}
    (consistent : progress.Consistent)
    (event : Event)
    (lastNumber : UInt64) :
    (progress.recordAt event lastNumber).Consistent := by
  constructor
  · rw [Progress.recordAt, record_events, getLast?_filterMap_concat, ← consistent.responseId]
    rfl
  · rw [Progress.recordAt, record_events, getLast?_filterMap_concat, ← consistent.lastMessageId]
    rfl

/-- Noting the events of consistent progress again, without them at first, gives it back. -/
theorem Consistent.recordAll_own
    {progress : Progress}
    (consistent : progress.Consistent) :
    { progress with events := [] }.recordAll (progress.events.map (·, progress.lastNumber)) =
      progress := by
  let blank : Progress := { progress with events := [] }
  let entries := progress.events.map (·, progress.lastNumber)
  have responseId : (blank.recordAll entries).responseId = progress.responseId := by
    have given :
        (blank.recordAll entries).responseId =
          (progress.events.filterMap (announcedId? ·.body)).getLast?.or progress.responseId := by
      rw [recordAll_responseId, List.filterMap_map]
      rfl
    rw [given, ← consistent.responseId, Option.or_self]
  have lastMessageId : (blank.recordAll entries).lastMessageId = progress.lastMessageId := by
    have given :
        (blank.recordAll entries).lastMessageId =
          (progress.events.filterMap (startedMessage? ·.body)).getLast?.or
            progress.lastMessageId := by
      rw [recordAll_lastMessageId, List.filterMap_map]
      rfl
    rw [given, ← consistent.lastMessageId, Option.or_self]
  have lastNumber : (blank.recordAll entries).lastNumber = progress.lastNumber :=
    recordAll_lastNumber blank progress.events
  have events : (blank.recordAll entries).events = progress.events := by
    simp [recordAll_events, entries, blank, Function.comp_def]
  calc blank.recordAll entries
      = ⟨(blank.recordAll entries).responseId, (blank.recordAll entries).lastNumber,
          (blank.recordAll entries).lastMessageId, (blank.recordAll entries).events⟩ := rfl
    _ = progress := by rw [responseId, lastNumber, lastMessageId, events]

/-- So does noting more events behind its own. -/
theorem Consistent.recordAll_own_append
    {progress : Progress}
    (consistent : progress.Consistent)
    (entries : List (Event × UInt64)) :
    { progress with events := [] }.recordAll
        (progress.events.map (·, progress.lastNumber) ++ entries) =
      progress.recordAll entries := by
  rw [recordAll_append, consistent.recordAll_own]

end AgentWire.Resume.Progress

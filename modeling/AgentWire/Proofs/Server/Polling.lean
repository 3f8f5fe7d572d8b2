import AgentWire.Proofs.Server.LiveTail
import AgentWire.Server.Service
import Mathlib.Data.List.Infix

namespace AgentWire.Server

/-!
# Asking for the events so far

Who asks for the events of a run so far gets an answer that is made of two looks at its
log: one for the events, and a later one for whether the log is finished.  The recorder
may write in between.  An answer that says that the run is finished then lacks what was
written there, and who asks again behind the events of the answer gets it.
-/

/-- Whether an answer says that the run is finished. -/
def SaysFinished (answer : Json) : Prop :=
  answer.get? "finished" = some (.bool true)

/-- The events that an answer gives. -/
def Gives (answer : Json) (events : List Event) : Prop :=
  answer.get? "events" = some (.array (events.map Event.encode))

namespace Recording

/--
The answer to who asks for the events of a recording so far: its log is read for the
events with greater numbers, some turns are taken, and then it is read for whether it is
finished.
-/
def poll?
    (recording : Recording)
    (runId : String)
    (number : Nat)
    (between : List Turn) :
    Option Json := do
  let first ← recording.log?
  let second ← (recording.run between).log?
  some (Service.eventsSoFar runId number first second)

end Recording

section Answers

variable
  {runId : String}
  {number : Nat}
  {first second : RunLog}

/-- An answer says finished exactly where the second look at the log finds it finished. -/
theorem saysFinished_iff :
    SaysFinished (Service.eventsSoFar runId number first second) ↔ second.finished = true := by
  have told :
      (Service.eventsSoFar runId number first second).get? "finished" =
        some (.bool second.finished) :=
    rfl
  rw [SaysFinished, told]
  simp

/-- An answer gives the events that the first look at the log finds. -/
theorem gives_iff {events : List Event} :
    Gives (Service.eventsSoFar runId number first second) events ↔
      (first.eventsAfter number).map Event.encode = events.map Event.encode := by
  have given :
      (Service.eventsSoFar runId number first second).get? "events" =
        some (.array ((first.eventsAfter number).map Event.encode)) :=
    rfl
  rw [Gives, given]
  simp

/-- An answer is complete if the events were read behind the last one that was asked for. -/
theorem gives_drop_iff
    {whole : List Event}
    (start : first.events <+: whole) :
    Gives (Service.eventsSoFar runId number first second) (whole.drop number) ↔
      whole.length ≤ max first.size number := by
  rw [gives_iff]
  constructor
  · intro same
    have lengths := congrArg List.length same
    simp only [RunLog.eventsAfter, List.length_map, List.length_drop] at lengths
    simp only [RunLog.size]
    omega
  · intro reached
    by_cases all : whole.length ≤ first.size
    · rw [RunLog.eventsAfter, start.eq_of_length_le all]
    · have beyond : whole.length ≤ number := by omega
      have shorter : first.events.length ≤ number := Nat.le_trans start.length_le beyond
      rw [RunLog.eventsAfter, List.drop_eq_nil_of_le shorter, List.drop_eq_nil_of_le beyond]

end Answers

namespace Recording

variable
  {all : List Event}
  {recording : Recording}
  {log : RunLog}

/-- Polling is answered from the log before and behind the turns in between. -/
theorem poll?_eq
    {second : RunLog}
    {between : List Turn}
    (found : recording.log? = some log)
    (foundSecond : (recording.run between).log? = some second)
    (runId : String)
    (number : Nat) :
    recording.poll? runId number between =
      some (Service.eventsSoFar runId number log second) := by
  simp [poll?, found, foundSecond]

/-- A service looks twice without anything in between. -/
theorem resume_eq_poll?
    {service : Service}
    {time segment text runId : String}
    {query : ResumeQuery}
    (same : service.archive.store = recording.store)
    (found : recording.log? = some log)
    (decoded : Text.Utf8.decode? (Text.percentDecode segment.toList) = some runId)
    (read : ResumeQuery.read text = .ok query)
    (unfollowed : query.stream = some false)
    (named : recording.store.number? runId = some recording.recorder.log) :
    ∃ answer,
      recording.poll? runId (query.startingAfter.getD 0) [] = some answer ∧
        service.resume time segment text = .respond (.document 200 answer) := by
  have stored : recording.store.find? runId = some log := by
    rw [RunStore.find?, named]
    exact found
  have foundAgain : (recording.run []).log? = some log := found
  refine ⟨_, poll?_eq found foundAgain runId _, ?_⟩
  simp only [Service.resume, decoded, read, same, named, stored, unfollowed, if_true]

/--
The log of a recording holds the first events of its run, and all of them once it is
finished.
-/
theorem Holds.kept (holds : recording.Holds all) :
    ∃ log,
      recording.log? = some log ∧
        log.events <+: inLog (untilEnd all) ∧
        (log.finished = true → log.events = inLog (untilEnd all)) := by
  obtain ⟨log, found, writes, -⟩ := holds
  obtain ⟨kept, written, start, complete⟩ := writes.kept
  refine ⟨log, found, ?_, ?_⟩
  · rw [written]
    exact inLog_monotone start
  · intro finished
    rw [written, complete finished]

/-- Behind the end of a run every answer is complete. -/
theorem poll?_of_finished
    (holds : recording.Holds all)
    (found : recording.log? = some log)
    (finished : log.finished = true)
    (runId : String)
    (number : Nat)
    (between : List Turn) :
    ∃ answer,
      recording.poll? runId number between = some answer ∧
        SaysFinished answer ∧
        Gives answer ((inLog (untilEnd all)).drop number) := by
  obtain ⟨second, foundSecond, -, still⟩ := finished_run found finished between
  obtain ⟨kept, stored, start, complete⟩ := holds.kept
  obtain rfl : log = kept := Option.some.inj (found.symm.trans stored)
  refine ⟨_, poll?_eq found foundSecond runId number, saysFinished_iff.mpr still,
    (gives_drop_iff start).mpr ?_⟩
  rw [← complete finished]
  exact Nat.le_max_left _ _

/--
Whatever is written before and between the two looks: an answer gives the events that the
log held at the first look, and says whether it was finished at the second one.  If it
says so it is complete exactly if nothing that was asked for was written in between.  The
answer to who then asks again, behind the last event that was given, is complete, and the
two answers together give all events of the run that have greater numbers.
-/
theorem answer_complete_iff
    (store : RunStore)
    (runId : String)
    (source : EventStream)
    (retention : Nat)
    (before between : List Turn)
    (asked : String)
    (number : Nat) :
    let recording := (start store runId source retention).run before
    let whole := inLog (untilEnd source.events)
    (whole.length < UInt64.size →
        whole.drop number = whole.filter (numberedAbove number)) ∧
      ∃ first second answer,
        recording.log? = some first ∧
          (recording.run between).log? = some second ∧
          recording.poll? asked number between = some answer ∧
          Gives answer (first.eventsAfter number) ∧
          first.eventsAfter number <+: whole.drop number ∧
          (SaysFinished answer ↔ second.finished = true) ∧
          (SaysFinished answer →
            (Gives answer (whole.drop number) ↔ second.size ≤ max first.size number) ∧
              ∀ later after,
                ∃ rest next,
                  ((recording.run between).run later).poll? asked
                        (number + (first.eventsAfter number).length) after =
                      some next ∧
                    SaysFinished next ∧
                    Gives next rest ∧
                    first.eventsAfter number ++ rest = whole.drop number) := by
  intro recording whole
  have holds : recording.Holds source.events :=
    (holds_start store runId source retention).run before
  have holdsLater : (recording.run between).Holds source.events := holds.run between
  obtain ⟨first, found, start, -⟩ := holds.kept
  obtain ⟨second, foundSecond, -, complete⟩ := holdsLater.kept
  refine ⟨?_, first, second, _, found, foundSecond, poll?_eq found foundSecond asked number,
    gives_iff.mpr rfl, start.drop number, saysFinished_iff, ?_⟩
  · intro short
    exact drop_inLog (by simpa [whole] using short) number
  intro told
  have finished : second.finished = true := saysFinished_iff.mp told
  refine ⟨?_, fun later after => ?_⟩
  · have size : second.size = whole.length := congrArg List.length (complete finished)
    rw [gives_drop_iff start, size]
  · obtain ⟨last, foundLast, -, still⟩ := finished_run foundSecond finished later
    obtain ⟨next, answered, toldNext, given⟩ :=
      poll?_of_finished (holdsLater.run later) foundLast still asked
        (number + (first.eventsAfter number).length) after
    refine ⟨_, next, answered, toldNext, given, ?_⟩
    obtain ⟨more, split⟩ := start.drop number
    have rest : whole.drop (number + (first.eventsAfter number).length) = more := by
      rw [← List.drop_drop, ← split]
      exact List.drop_left
    rw [rest]
    exact split

end Recording

namespace LateEnd

/-- A run that starts and ends. -/
def source : EventStream :=
  [.arrival (EventBody.runStarted "t" "r").toEvent,
   .arrival (EventBody.runFinished "t" "r" none).toEvent]

/-- The recorder writes one event. -/
def writing : List Turn :=
  [.record, .record, .record]

/-- The recording when its first event is written. -/
def underway : Recording :=
  (Recording.start {} "r" source 0).run writing

end LateEnd

namespace Recording

open LateEnd

/-- An answer may say that the run is finished and lack its last event. -/
theorem not_finished_answer_complete :
    ¬∀ (store : RunStore) (runId : String) (source : EventStream) (retention : Nat)
        (before between : List Turn) (asked : String) (number : Nat) (answer : Json),
        ((start store runId source retention).run before).poll? asked number between =
            some answer →
          SaysFinished answer →
          Gives answer ((inLog (untilEnd source.events)).filter (numberedAbove number)) := by
  intro finishedIsComplete
  have answered :
      underway.poll? "r" 0 writing =
        some (.object
          [("events", .array [((EventBody.runStarted "t" "r").toEvent.numbered 1).encode]),
           ("finished", .bool true), ("runId", .string "r")]) :=
    rfl
  have complete := finishedIsComplete {} "r" source 0 writing writing "r" 0 _ answered rfl
  cases complete

end Recording

end AgentWire.Server

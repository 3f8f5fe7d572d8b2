import AgentWire.Server.Recorder
import Mathlib.Data.List.Induction

namespace AgentWire.Server

/-!
# What a recorder writes

A recorder writes the events of its stream into its log, numbered from one on, up
to the first event that ends a run.  Whatever it does next, a log that is finished
keeps its events.
-/

/-- The events up to the first one that ends a run. -/
def untilEnd : List Event → List Event
  | [] => []
  | event :: rest => if event.isTerminal then [event] else event :: untilEnd rest

/-- Events with the numbers that a log gives them. -/
def inLog (events : List Event) : List Event :=
  events.mapIdx fun index event => event.numbered (UInt64.ofNat (index + 1))

/-- An event with a number that is greater. -/
def numberedAbove (number : Nat) (event : Event) : Bool :=
  event.sequenceNumber.any (number < ·.toNat)

section Lists

variable
  {events first second : List Event}
  {event : Event}

@[simp] theorem length_inLog : (inLog events).length = events.length := by
  simp [inLog]

theorem inLog_concat :
    inLog (events ++ [event]) =
      inLog events ++ [event.numbered (UInt64.ofNat (events.length + 1))] := by
  simp [inLog]

/-- Events have the same numbers, whatever comes behind them. -/
theorem inLog_monotone (start : first <+: second) : inLog first <+: inLog second := by
  obtain ⟨rest, rfl⟩ := start
  simp [inLog, List.mapIdx_append]

/-- Leaving out the first events is leaving out those with low numbers. -/
theorem drop_inLog
    (short : events.length < UInt64.size)
    (number : Nat) :
    (inLog events).drop number = (inLog events).filter (numberedAbove number) := by
  induction events using List.reverseRecOn with
  | nil => simp [inLog]
  | append_singleton events event inductionHypothesis =>
      rw [List.length_append, List.length_singleton] at short
      have before := inductionHypothesis (Nat.lt_of_succ_lt short)
      have word : (UInt64.ofNat (events.length + 1)).toNat = events.length + 1 :=
        UInt64.toNat_ofNat_of_lt' short
      have last :
          numberedAbove number (event.numbered (UInt64.ofNat (events.length + 1))) =
            decide (number ≤ events.length) := by
        simp only [numberedAbove, Event.numbered, Option.any_some, word, Nat.lt_succ_iff]
      rw [inLog_concat, List.filter_append, ← before]
      generalize event.numbered (UInt64.ofNat (events.length + 1)) = added at last ⊢
      by_cases inside : number ≤ events.length
      · rw [List.drop_append_of_le_length (by simpa using inside)]
        simp [last, inside]
      · have beyond : (inLog events ++ [added]).length ≤ number := by
          simp only [List.length_append, length_inLog, List.length_singleton]
          omega
        have nothing : (inLog events).drop number = [] := by
          apply List.drop_eq_nil_of_le
          rw [length_inLog]
          omega
        rw [List.drop_eq_nil_of_le beyond, nothing]
        simp [last, inside]

/-- Events that do not end the run come before its end. -/
theorem untilEnd_append (unended : ∀ event ∈ first, event.isTerminal = false) :
    untilEnd (first ++ second) = first ++ untilEnd second := by
  induction first with
  | nil => rfl
  | cons event rest inductionHypothesis =>
      have goesOn : event.isTerminal = false := unended event List.mem_cons_self
      have others : ∀ event ∈ rest, event.isTerminal = false :=
        fun event member => unended event (List.mem_cons_of_mem _ member)
      simp [untilEnd, goesOn, inductionHypothesis others]

end Lists

namespace RunStore

variable
  {store : RunStore}
  {number : LogNumber}
  {id : String}
  {act : RunLog → RunLog}

theorem log?_change :
    (store.change number act).log? number = (store.log? number).map act := by
  simp [change, log?]

theorem log?_create :
    (store.create id).2.log? (store.create id).1 = some { runId := id } := by
  simp [create, make, enter, log?]

end RunStore

namespace Recorder

/-- What one step makes of a recorder and of its log. -/
inductive Moves (recorder : Recorder) (log : RunLog) : Recorder → RunLog → Prop where
  | exhaust
      (stage : recorder.stage = .receiving)
      (source : recorder.source = []) :
      Moves recorder log { recorder with stage := .closing } log
  | rest
      {milliseconds : Nat}
      {later : EventStream}
      (stage : recorder.stage = .receiving)
      (source : recorder.source = .pause milliseconds :: later) :
      Moves recorder log { recorder with source := later } log
  | receive
      {event : Event}
      {later : EventStream}
      (stage : recorder.stage = .receiving)
      (source : recorder.source = .arrival event :: later) :
      Moves recorder log { recorder with source := later, stage := recorder.receive event } log
  | name
      {runId : String}
      {event : Event}
      (stage : recorder.stage = .naming runId event) :
      Moves recorder log { recorder with stage := .pushing event } log
  | discard
      {event : Event}
      (stage : recorder.stage = .pushing event)
      (finished : log.finished = true) :
      Moves recorder log { recorder with stage := .closing } log
  | push
      {event : Event}
      (stage : recorder.stage = .pushing event)
      (unfinished : log.finished = false) :
      Moves recorder log { recorder with stage := .announcing } (log.push event)
  | announce
      (stage : recorder.stage = .announcing) :
      Moves recorder log { recorder with stage := .receiving } log.announce
  | close
      (stage : recorder.stage = .closing) :
      Moves recorder log { recorder with stage := .reporting } log.close
  | report
      (stage : recorder.stage = .reporting) :
      Moves recorder log { recorder with stage := .done } log.announce
  | stay
      (stage : recorder.stage = .done) :
      Moves recorder log recorder log

variable
  {recorder next : Recorder}
  {log changed : RunLog}
  {store : RunStore}
  {all : List Event}

/-- A recorder that receives an event pushes it, and enters the id first if it announces one. -/
theorem receive_cases
    (recorder : Recorder)
    (event : Event) :
    recorder.receive event = .pushing event ∨
      ∃ threadId runId,
        event.body = .runStarted threadId runId ∧
          recorder.receive event = .naming runId event := by
  unfold receive
  split
  · next threadId runId body =>
    split
    · exact .inl rfl
    · exact .inr ⟨threadId, runId, body, rfl⟩
  · exact .inl rfl

/-- A step of a recorder moves its log. -/
theorem step_moves (found : store.log? recorder.log = some log) :
    ∃ changed,
      (recorder.step store).1.log? recorder.log = some changed ∧
        recorder.Moves log (recorder.step store).2 changed := by
  obtain ⟨number, runId, source, retention, stage⟩ := recorder
  have found : store.log? number = some log := found
  have changes act : (store.change number act).log? number = some (act log) := by
    simp [RunStore.log?_change, found]
  cases stage with
  | receiving =>
      match source with
      | [] => exact ⟨log, found, .exhaust rfl rfl⟩
      | .pause milliseconds :: later => exact ⟨log, found, .rest rfl rfl⟩
      | .arrival event :: later => exact ⟨log, found, .receive rfl rfl⟩
  | naming runId event => exact ⟨log, found, .name rfl⟩
  | pushing event =>
      cases finished : log.finished with
      | true =>
          refine ⟨log, ?_, ?_⟩
          · simp [step, found, finished]
          · simpa [step, found, finished] using Moves.discard rfl finished
      | false =>
          refine ⟨log.push event, ?_, ?_⟩
          · simp [step, found, finished, changes]
          · simpa [step, found, finished] using Moves.push rfl finished
  | announcing => exact ⟨log.announce, changes _, .announce rfl⟩
  | closing => exact ⟨log.close, changes _, .close rfl⟩
  | reporting => exact ⟨log.announce, changes _, .report rfl⟩
  | done => exact ⟨log, found, .stay rfl⟩

/-- The events that a recorder has still to write. -/
def ahead (recorder : Recorder) : List Event :=
  match recorder.stage with
  | .naming _ event | .pushing event => event :: recorder.source.events
  | _ => recorder.source.events

/--
What a log holds of the events of a run: all of them up to the end if it is
finished, and otherwise those that its recorder has no longer ahead.
-/
structure Writes (all : List Event) (recorder : Recorder) (log : RunLog) : Prop where
  complete : log.finished = true → log.events = inLog (untilEnd all)
  underway :
    log.finished = false →
      ∃ kept,
        log.events = inLog kept ∧
          (∀ event ∈ kept, event.isTerminal = false) ∧
          all = kept ++ recorder.ahead
  exhausted : recorder.stage = .closing → log.finished = false → recorder.ahead = []
  closed : recorder.stage = .reporting ∨ recorder.stage = .done → log.finished = true

/-- A log holds first events of the run, and once it is finished all events up to the end. -/
theorem Writes.kept (writes : recorder.Writes all log) :
    ∃ kept,
      log.events = inLog kept ∧
        kept <+: untilEnd all ∧
        (log.finished = true → kept = untilEnd all) := by
  cases finished : log.finished with
  | true =>
      exact ⟨untilEnd all, writes.complete finished, List.prefix_refl _, fun _ => rfl⟩
  | false =>
      obtain ⟨kept, written, unended, split⟩ := writes.underway finished
      refine ⟨kept, written, ?_, by simp⟩
      rw [split, untilEnd_append unended]
      exact List.prefix_append _ _

/-- A move that adds nothing to the log and takes nothing from what is ahead. -/
theorem Writes.carry
    (writes : recorder.Writes all log)
    (events : changed.events = log.events)
    (finished : changed.finished = log.finished)
    (same : next.ahead = recorder.ahead)
    (exhausted : next.stage = .closing → log.finished = false → next.ahead = [])
    (closed : next.stage = .reporting ∨ next.stage = .done → log.finished = true) :
    next.Writes all changed where
  complete := by rw [events, finished]; exact writes.complete
  underway := by rw [events, finished, same]; exact writes.underway
  exhausted := by rw [finished]; exact exhausted
  closed := by rw [finished]; exact closed

/-- A recorder that has received nothing writes an empty log. -/
theorem Writes.nil
    (recorder : Recorder)
    (fresh : recorder.stage = .receiving)
    (runId : String) :
    recorder.Writes recorder.source.events { runId } where
  complete := by simp
  underway := fun _ => ⟨[], rfl, by simp, by simp [ahead, fresh]⟩
  exhausted := by simp [fresh]
  closed := by simp [fresh]

/-- Every step of a recorder writes what it should. -/
theorem Moves.writes
    (moves : recorder.Moves log next changed)
    (writes : recorder.Writes all log) :
    next.Writes all changed := by
  cases moves with
  | exhaust stage source =>
      have nothing : recorder.source.events = [] := by simp [source, EventStream.events]
      exact writes.carry rfl rfl (by simp [ahead, stage]) (by simp [ahead, nothing]) (by simp)
  | rest stage source =>
      exact writes.carry rfl rfl (by simp [ahead, stage, source, EventStream.events])
        (by simp [stage]) (by simp [stage])
  | @receive event later stage source =>
      have received := recorder.receive_cases event
      have same :
          ({ recorder with source := later, stage := recorder.receive event } : Recorder).ahead =
            recorder.ahead := by
        rcases received with shape | ⟨-, runId, -, shape⟩ <;>
          simp [ahead, shape, stage, source, EventStream.events]
      apply writes.carry rfl rfl same
      · rcases received with shape | ⟨-, runId, -, shape⟩ <;> simp [shape]
      · rcases received with shape | ⟨-, runId, -, shape⟩ <;> simp [shape]
  | name stage =>
      exact writes.carry rfl rfl (by simp [ahead, stage]) (by simp) (by simp)
  | discard stage finished =>
      exact ⟨writes.complete, by simp [finished], by simp [finished], by simp⟩
  | @push event stage unfinished =>
      -- The event that is pushed is the first one ahead.
      obtain ⟨kept, written, unended, split⟩ := writes.underway unfinished
      simp only [ahead, stage] at split
      have pushed : (log.push event).events = inLog (kept ++ [event]) := by
        simp [RunLog.push, RunLog.size, written, inLog_concat]
      refine ⟨?_, ?_, by simp, by simp⟩
      · intro terminal
        have ends : event.isTerminal = true := terminal
        rw [pushed, split, untilEnd_append unended]
        simp [untilEnd, ends]
      · intro goesOn
        refine ⟨kept ++ [event], pushed, ?_, by simp [ahead, split]⟩
        intro other member
        rcases List.mem_append.mp member with among | final
        · exact unended other among
        · obtain rfl := List.mem_singleton.mp final
          exact goesOn
  | announce stage =>
      exact writes.carry rfl rfl (by simp [ahead, stage]) (by simp) (by simp)
  | close stage =>
      refine ⟨?_, by simp [RunLog.close], by simp, by simp [RunLog.close]⟩
      intro _
      cases finished : log.finished with
      | true => exact writes.complete finished
      | false =>
          obtain ⟨kept, written, unended, split⟩ := writes.underway finished
          -- A source that has dried up leaves nothing ahead, so the run has no end to wait for.
          rw [writes.exhausted stage finished, List.append_nil] at split
          have whole : untilEnd (kept ++ []) = kept ++ [] := untilEnd_append unended
          rw [List.append_nil] at whole
          rw [split, whole]
          exact written
  | report stage =>
      exact writes.carry rfl rfl (by simp [ahead, stage]) (by simp)
        fun _ => writes.closed (.inl stage)
  | stay stage => exact writes

/-- A recorder keeps to its log. -/
theorem Moves.same_log (moves : recorder.Moves log next changed) : next.log = recorder.log := by
  cases moves <;> rfl

/-- A log that is finished keeps its events. -/
theorem Moves.keeps_finished
    (moves : recorder.Moves log next changed)
    (finished : log.finished = true) :
    changed.events = log.events ∧ changed.finished = true := by
  cases moves with
  | push stage unfinished =>
      rw [finished] at unfinished
      cases unfinished
  | close stage => exact ⟨rfl, rfl⟩
  | _ => exact ⟨rfl, finished⟩

/-- A recorder that has changed its log and not told the readers. -/
def OwesNews (recorder : Recorder) : Prop :=
  recorder.stage = .announcing ∨ recorder.stage = .reporting

/-- No event of a log is lost. -/
theorem Moves.events_monotone (moves : recorder.Moves log next changed) :
    log.events <+: changed.events := by
  cases moves with
  | push stage unfinished => exact List.prefix_append _ _
  | _ => exact List.prefix_refl _

/-- No news of a log are taken back. -/
theorem Moves.news_monotone (moves : recorder.Moves log next changed) :
    log.news ≤ changed.news := by
  cases moves with
  | announce stage => exact Nat.le_succ _
  | report stage => exact Nat.le_succ _
  | _ => exact Nat.le_refl _

/-- A recorder that owes news tells it with its next step. -/
theorem Moves.news_of_owesNews
    (moves : recorder.Moves log next changed)
    (owes : recorder.OwesNews) :
    changed.news = log.news + 1 := by
  cases moves with
  | announce stage => rfl
  | report stage => rfl
  | _ => simp_all [OwesNews]

/-- A log changes only together with a debt of news. -/
theorem Moves.unchanged
    (moves : recorder.Moves log next changed)
    (settled : ¬next.OwesNews) :
    changed.events = log.events ∧ changed.finished = log.finished := by
  cases moves with
  | push stage unfinished => simp [OwesNews] at settled
  | close stage => simp [OwesNews] at settled
  | _ => exact ⟨rfl, rfl⟩

end Recorder

end AgentWire.Server

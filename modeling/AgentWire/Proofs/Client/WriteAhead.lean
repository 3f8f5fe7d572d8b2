import AgentWire.Proofs.Client.Session
import AgentWire.Proofs.Resume.Progress

namespace AgentWire.Client

/-!
# Progress is stored before it is delivered

Whatever the surroundings of a stream do, an event of a run that goes on is in
the store when the consumer receives it, behind all others that were delivered
since the last restart.  A restart and the end of a run find the store empty.

`WriteAhead` is the invariant: for each stage it relates the progress in the
controller, the progress in the store, and the events that were delivered.
-/

open Resume (Memory Progress)

/--
Progress from which a run can be replayed: it is made by its events, there are
some, and none of them ends the run.
-/
structure Replayable (progress : Progress) : Prop where
  folded : progress = .ofEvents progress.events
  nonempty : progress.events ≠ []
  unended : ∀ event ∈ progress.events, event.isTerminal = false

/-- Whatever is stored can be replayed. -/
def Resumable (stored : Option Progress) : Prop :=
  ∀ progress, stored = some progress → Replayable progress

/-- What is stored of progress: nothing until there is an event. -/
def kept (progress : Progress) : Option Progress :=
  if progress.events = [] then none else some progress

/-- Store, controller and consumer agree on what was delivered. -/
structure Caught
    (progress : Progress)
    (delivered : Bool)
    (stored : Option Progress)
    (segment : List Event) :
    Prop where
  stored_eq : stored = kept progress
  segment_eq : segment = progress.events
  delivered_eq : delivered = !progress.events.isEmpty

/-- How store, controller and consumer stand to each other at each stage. -/
def Standing
    (progress : Progress)
    (delivered : Bool)
    (stored : Option Progress)
    (segment : List Event) :
    Stage → Prop
  | .loading => segment = []
  | .replaying event rest =>
      stored = some progress ∧ progress.events = segment ++ event :: rest ∧
        delivered = true
  | .connecting | .forgetting | .reading | .restarting _ | .waiting _ =>
      Caught progress delivered stored segment
  | .forgotten => stored = none ∧ segment = progress.events
  | .restarted _ _ => stored = none ∧ progress = {}
  | .saving event | .appending event =>
      stored = kept (.ofEvents segment) ∧ progress.events = segment ++ [event] ∧
        event.isTerminal = false ∧ delivered = true
  | .settling event =>
      progress.events = segment ++ [event] ∧ event.isTerminal = true ∧ delivered = true
  | .delivering event =>
      progress.events = segment ++ [event] ∧
        stored = (if event.isTerminal then none else some progress) ∧
        delivered = true
  | .closing | .failed _ => True
  | .finished => stored = none

/-- The invariant of a stream. -/
structure WriteAhead
    (controller : Controller)
    (stored : Option Progress)
    (segment : List Event) :
    Prop where
  folded : controller.progress = .ofEvents controller.progress.events
  resumable : Resumable stored
  standing :
    Standing controller.progress controller.delivered stored segment controller.stage

/-- A store that holds nothing can be replayed. -/
theorem Resumable.none : Resumable none := by
  intro progress found
  cases found

@[simp] theorem kept_empty : kept {} = none :=
  rfl

theorem kept_of_ne_nil
    {progress : Progress}
    (nonempty : progress.events ≠ []) :
    kept progress = some progress := by
  simp [kept, nonempty]

namespace WriteAhead

variable
  {controller next : Controller}
  {stored : Option Progress}
  {segment : List Event}
  {event : Event}

/-- Before anything has happened, the invariant asks only for a store that can be replayed. -/
theorem start
    (resumable : Resumable stored)
    (policy : RetryPolicy)
    (key : String)
    (input : RunInput) :
    WriteAhead { policy, key, input } stored [] where
  folded := rfl
  resumable := resumable
  standing := rfl

/-- A stage is entered as soon as its standing is right. -/
theorem goTo
    (before : WriteAhead controller stored segment)
    (stage : Stage)
    (standing :
      Standing controller.progress controller.delivered stored segment stage) :
    WriteAhead (controller.goTo stage) stored segment :=
  ⟨before.folded, before.resumable, standing⟩

/-- A stream starts with what the store holds. -/
theorem begin
    (resumable : Resumable stored) :
    WriteAhead (controller.begin stored) stored [] := by
  cases stored with
  | none =>
      exact ⟨rfl, resumable, ⟨rfl, rfl, rfl⟩⟩
  | some progress =>
      obtain ⟨folded, nonempty, unended⟩ := resumable progress rfl
      cases events : progress.events with
      | nil =>
          exact (nonempty events).elim
      | cons first rest =>
          have shape :
              controller.begin (some progress) =
                { controller with
                  progress
                  delivered := true
                  stage := .replaying first rest } := by
            simp [Controller.begin, Controller.replay, Controller.goTo, events]
          rw [shape]
          exact ⟨folded, resumable, rfl, events, rfl⟩

/-- An event from the store is handed over, and the next one is due. -/
theorem replay
    {rest : List Event}
    (before : WriteAhead controller stored segment)
    (stage : controller.stage = .replaying event rest) :
    WriteAhead (controller.replay rest) stored (segment ++ [event]) := by
  have standing := before.standing
  rw [stage] at standing
  obtain ⟨storedShape, eventsShape, delivered⟩ := standing
  have nonempty : controller.progress.events ≠ [] := by
    simp [eventsShape]
  cases rest with
  | nil =>
      refine ⟨before.folded, before.resumable, ?_, ?_, ?_⟩
      · exact storedShape.trans (kept_of_ne_nil nonempty).symm
      · exact eventsShape.symm
      · show controller.delivered = !controller.progress.events.isEmpty
        simp [delivered, nonempty]
  | cons following later =>
      refine ⟨before.folded, before.resumable, storedShape, ?_, delivered⟩
      show controller.progress.events = segment ++ [event] ++ following :: later
      simp [eventsShape]

/-- An event that arrives is noted; what to do with the store depends on it. -/
theorem accept
    (folded : controller.progress = .ofEvents controller.progress.events)
    (resumable : Resumable stored)
    (storedShape : stored = kept controller.progress)
    (segmentShape : segment = controller.progress.events) :
    WriteAhead (controller.accept event) stored segment := by
  have progressShape : controller.progress = .ofEvents segment :=
    segmentShape ▸ folded
  have eventsShape :
      (controller.progress.record event).events = segment ++ [event] := by
    rw [Progress.record_events, segmentShape]
  have storedFold : stored = kept (.ofEvents segment) :=
    progressShape ▸ storedShape
  refine ⟨?_, resumable, ?_⟩
  · show controller.progress.record event =
      .ofEvents (controller.progress.record event).events
    rw [eventsShape, Progress.ofEvents_concat, ← progressShape]
  · simp only [Controller.accept]
    split
    · rename_i terminal
      exact ⟨eventsShape, terminal, rfl⟩
    · rename_i unended
      split
      · exact ⟨storedFold, eventsShape, by simpa using unended, rfl⟩
      · exact ⟨storedFold, eventsShape, by simpa using unended, rfl⟩

/-- An event that arrives is passed over, accepted, or starts the run anew. -/
theorem receive
    (before : WriteAhead controller stored segment)
    (stage : controller.stage = .reading) :
    WriteAhead (controller.receive event) stored segment := by
  have caught := before.standing
  rw [stage] at caught
  simp only [Controller.receive]
  split
  · exact before
  · exact before.goTo _ caught
  · exact accept before.folded before.resumable caught.stored_eq caught.segment_eq

/-- A connection that breaks leaves the invariant, tried again or not. -/
theorem interrupt
    (before : WriteAhead controller stored segment)
    (caught :
      Caught controller.progress controller.delivered stored segment)
    (error : ClientError) :
    WriteAhead (controller.interrupt error) stored segment := by
  refine ⟨before.folded, before.resumable, ?_⟩
  simp only [Controller.interrupt]
  split
  · exact caught
  · trivial

/-- Where a run cannot be resumed, a fresh one may be asked for under the invariant. -/
theorem fallBack
    (before : WriteAhead controller stored segment)
    (caught :
      Caught controller.progress controller.delivered stored segment)
    (error : ClientError) :
    WriteAhead (controller.fallBack error) stored segment := by
  simp only [Controller.fallBack]
  split
  · exact before.interrupt caught error
  · exact before.goTo _ trivial

/-- A controller that forgets its run has nothing stored and nothing delivered of it. -/
theorem forget : WriteAhead controller.forget none [] :=
  ⟨rfl, .none, rfl, rfl, rfl⟩

/-- All progress is stored before an event is handed over. -/
theorem save
    (before : WriteAhead controller stored segment)
    (stage :
      controller.stage = .saving event ∨ controller.stage = .appending event) :
    WriteAhead (controller.goTo (.delivering event))
      (some controller.progress) segment := by
  have standing := before.standing
  have facts :
      stored = kept (.ofEvents segment) ∧
        controller.progress.events = segment ++ [event] ∧
        event.isTerminal = false ∧ controller.delivered = true := by
    rcases stage with stage | stage <;> rwa [stage] at standing
  obtain ⟨storedShape, eventsShape, unended, delivered⟩ := facts
  refine ⟨before.folded, ?_, eventsShape, by simp [Controller.goTo, unended], delivered⟩
  rintro progress found
  cases found
  refine ⟨before.folded, by simp [eventsShape], ?_⟩
  -- The earlier events were stored before this one, and what was stored can be replayed.
  intro noted member
  rw [eventsShape, List.mem_append, List.mem_singleton] at member
  rcases member with earlier | rfl
  · have segmentKept : stored = some (.ofEvents segment) := by
      rw [storedShape, kept_of_ne_nil]
      simpa using List.ne_nil_of_mem earlier
    apply (before.resumable _ segmentKept).unended
    simpa using earlier
  · exact unended

/-- Appending an event brings the store to the progress of the controller. -/
theorem append_eq
    {memory : Memory}
    (before :
      WriteAhead controller (memory.load controller.key) segment)
    (stage : controller.stage = .appending event) :
    (memory.append controller.key event controller.progress.lastNumber).load
        controller.key =
      some controller.progress := by
  have standing := before.standing
  rw [stage] at standing
  obtain ⟨storedShape, eventsShape, unended, delivered⟩ := standing
  -- Before the first event of a run nothing is stored, which appending takes for no progress.
  have base : (memory.load controller.key).getD {} = .ofEvents segment := by
    rw [storedShape]
    by_cases empty : segment = []
    · simp [empty]
    · rw [kept_of_ne_nil (by simpa using empty)]
      rfl
  have progressShape :
      controller.progress = (Progress.ofEvents segment).record event := by
    rw [← Progress.ofEvents_concat, ← eventsShape]
    exact before.folded
  rw [Memory.load_append, base, progressShape,
    Progress.recordAt_record_lastNumber]

/-- Every transition keeps the invariant. -/
theorem transition
    {memory after : Memory}
    {exchange : Exchange}
    (before :
      WriteAhead controller (memory.load controller.key) segment)
    (taken : Transition controller memory exchange next after) :
    WriteAhead next (after.load next.key)
      (exchange.delivery?.toList.foldl Session.extendSegment segment) := by
  rw [taken.key_eq]
  have standing := before.standing
  cases taken with
  | loaded stage =>
      rw [stage] at standing
      cases (standing : segment = [])
      exact begin before.resumable
  | replayed stage =>
      exact before.replay stage
  | opened stage =>
      rw [stage] at standing
      exact before.goTo _ standing
  | unknownRun stage requested =>
      rw [stage] at standing
      exact before.goTo _ standing
  | refused stage fallsBack =>
      rw [stage] at standing
      exact before.fallBack standing _
  | forgot stage =>
      rw [stage] at standing
      obtain ⟨storedShape, segmentShape, delivered⟩ :
          Caught _ _ _ _ := standing
      rw [Memory.load_clear]
      split
      · exact ⟨before.folded, .none, rfl, segmentShape⟩
      · -- No restart is told of, so the segment has to be empty already.
        rename_i undelivered
        have noEvents : segment = [] := by
          rw [segmentShape]
          simpa [delivered] using undelivered
        rw [noEvents]
        exact forget
  | gaveUp stage =>
      rw [stage] at standing
      rw [standing.1]
      exact forget
  | received stage =>
      exact before.receive stage
  | marked stage =>
      exact before.goTo _ trivial
  | ended stage =>
      rw [stage] at standing
      exact before.interrupt standing _
  | broken stage =>
      rw [stage] at standing
      exact before.fallBack standing _
  | cleared stage =>
      -- The segment still has the old events: it ends when the restart is handed over.
      rw [Memory.load_clear]
      exact ⟨rfl, .none, rfl, rfl⟩
  | restarted stage =>
      rw [stage] at standing
      obtain ⟨storedShape, progressShape⟩ := standing
      rw [storedShape]
      exact accept before.folded .none (by simp [progressShape])
        (by simp [progressShape, Exchange.delivery?, Session.extendSegment])
  | saved stage =>
      rw [Memory.load_save]
      exact before.save (.inl stage)
  | appended stage =>
      rw [before.append_eq stage]
      exact before.save (.inr stage)
  | @settled event stage =>
      rw [stage] at standing
      obtain ⟨eventsShape, terminal, delivered⟩ := standing
      rw [Memory.load_clear]
      exact ⟨before.folded, .none, eventsShape, by simp [terminal], delivered⟩
  | @delivered event stage =>
      rw [stage] at standing
      obtain ⟨eventsShape, storedShape, delivered⟩ := standing
      refine ⟨before.folded, before.resumable, ?_⟩
      by_cases terminal : event.isTerminal = true
      · simp [Controller.goTo, terminal, Standing]
      · simp only [terminal, Bool.false_eq_true, ↓reduceIte] at storedShape
        have nonempty : controller.progress.events ≠ [] := by
          simp [eventsShape]
        simp only [Controller.goTo, terminal, Bool.false_eq_true, ↓reduceIte]
        refine ⟨storedShape.trans (kept_of_ne_nil nonempty).symm, eventsShape.symm, ?_⟩
        simp [delivered, nonempty]
  | closed stage =>
      rw [Memory.load_clear]
      exact ⟨before.folded, .none, rfl⟩
  | waited stage =>
      rw [stage] at standing
      exact before.goTo _ standing
  | cancelled stage =>
      exact before.goTo _ trivial

end WriteAhead

namespace Session

theorem segment_concat
    (controller : Controller)
    (memory : Memory)
    (history : List Exchange)
    (exchange : Exchange) :
    segment { controller, memory, history := history ++ [exchange] } =
      exchange.delivery?.toList.foldl extendSegment
        ((history.filterMap Exchange.delivery?).foldl extendSegment []) := by
  rw [segment, deliveries_concat, List.foldl_append]

/-- A stream over a store that can be replayed keeps the invariant through any run. -/
theorem writeAhead_run
    {memory : Memory}
    {key : String}
    (resumable : Resumable (memory.load key))
    (policy : RetryPolicy)
    (input : RunInput)
    (moves : List Move) :
    let session := (start policy key input memory).run moves
    session.controller.key = key ∧
      WriteAhead session.controller session.stored session.segment := by
  refine run_keeps
    (fun session =>
      session.controller.key = key ∧
        WriteAhead session.controller session.stored session.segment)
    ?_ ?_ ⟨rfl, .start resumable policy key input⟩ moves
  · rintro session exchange controller memory ⟨keyShape, before⟩ taken
    refine ⟨taken.key_eq.trans keyShape, ?_⟩
    rw [segment_concat]
    exact before.transition taken
  · rintro session memory ⟨keyShape, before⟩ same
    refine ⟨keyShape, ?_⟩
    show WriteAhead session.controller (memory.load session.controller.key) session.segment
    rw [same]
    exact before

/-- An event is offered out of the store or live. -/
theorem stage_of_offered_event
    {session : Session}
    {event : Event}
    (offered : session.offered? = some (.event event)) :
    (∃ rest, session.controller.stage = .replaying event rest) ∨
      session.controller.stage = .delivering event := by
  cases stage : session.controller.stage <;>
    simp [offered?, Controller.action, stage] at offered
  case replaying first rest =>
    exact .inl ⟨rest, by rw [offered]⟩
  case delivering last =>
    exact .inr (by rw [offered])

/-- When an event is handed over live, everything up to it is stored. -/
theorem stored_of_live
    {session : Session}
    {event : Event}
    (invariant :
      WriteAhead session.controller session.stored session.segment)
    (offered : session.offered? = some (.event event))
    (live : session.isReplaying = false)
    (unended : event.isTerminal = false) :
    session.stored = some (.ofEvents (session.segment ++ [event])) := by
  have standing := invariant.standing
  rcases stage_of_offered_event offered with ⟨rest, stage⟩ | stage
  · simp [isReplaying, stage] at live
  · rw [stage] at standing
    obtain ⟨eventsShape, storedShape, delivered⟩ := standing
    rw [storedShape, ← eventsShape, ← invariant.folded]
    simp [unended]

/-- When the last event of a run is handed over, nothing is stored any more. -/
theorem stored_of_last
    {session : Session}
    {event : Event}
    (invariant :
      WriteAhead session.controller session.stored session.segment)
    (offered : session.offered? = some (.event event))
    (terminal : event.isTerminal = true) :
    session.stored = none := by
  have standing := invariant.standing
  rcases stage_of_offered_event offered with ⟨rest, stage⟩ | stage
  · -- What is replayed was stored, and no event that is stored ends its run.
    rw [stage] at standing
    obtain ⟨storedShape, eventsShape, delivered⟩ := standing
    have unended :=
      (invariant.resumable _ storedShape).unended event (by simp [eventsShape])
    simp [terminal] at unended
  · rw [stage] at standing
    simpa [terminal] using standing.2.1

/-- When a restart is told, nothing is stored any more. -/
theorem stored_of_restarted
    {session : Session}
    {lastNumber : UInt64}
    (invariant :
      WriteAhead session.controller session.stored session.segment)
    (offered : session.offered? = some (.restarted lastNumber)) :
    session.stored = none := by
  have standing := invariant.standing
  cases stage : session.controller.stage <;>
    simp [offered?, Controller.action, stage] at offered <;>
    rw [stage] at standing
  case forgotten =>
    exact standing.1
  case restarted =>
    exact standing.1

/-- When a stream has ended, nothing is stored any more. -/
theorem stored_of_ended
    {session : Session}
    (invariant :
      WriteAhead session.controller session.stored session.segment)
    (ended : session.hasEnded = true) :
    session.stored = none := by
  have standing := invariant.standing
  cases stage : session.controller.stage <;>
    simp [hasEnded, Controller.action, stage] at ended
  rw [stage] at standing
  exact standing

/-- What streams leave in a store can be replayed. -/
theorem Left.resumable
    {key : String}
    {memory : Memory}
    (left : Left key memory) :
    Resumable (memory.load key) := by
  induction left with
  | fresh empty =>
      rw [empty]
      exact .none
  | run policy input moves _ inductionHypothesis =>
      obtain ⟨keyShape, invariant⟩ :=
        writeAhead_run inductionHypothesis policy input moves
      have resumable := invariant.resumable
      rwa [stored, keyShape] at resumable

/--
A live event of a run that goes on is stored when it is handed over, behind all
events since the last restart, and the number, the run's id and the message's id
in the store are read off the last events that give them.  When a restart or the
last event of a run is handed over, and when the stream has ended, nothing is
stored.
-/
theorem stored_when_delivered
    {key : String}
    {memory : Memory}
    (left : Left key memory)
    (policy : RetryPolicy)
    (input : RunInput)
    (moves : List Move) :
    let session := (start policy key input memory).run moves
    (∀ event,
      session.offered? = some (.event event) →
      session.isReplaying = false →
      event.isTerminal = false →
      ∃ progress,
        let events := session.segment ++ [event]
        session.memory.load key = some progress ∧
          progress.events = events ∧
          progress.lastNumber = (events.filterMap (·.sequenceNumber)).getLast?.getD 0 ∧
          progress.responseId =
            (events.filterMap (Progress.announcedId? ·.body)).getLast? ∧
          progress.lastMessageId =
            (events.filterMap (Progress.startedMessage? ·.body)).getLast?) ∧
      (∀ event,
        session.offered? = some (.event event) →
        event.isTerminal = true →
        session.memory.load key = none) ∧
      (∀ lastNumber,
        session.offered? = some (.restarted lastNumber) →
        session.memory.load key = none) ∧
      (session.hasEnded = true → session.memory.load key = none) := by
  intro session
  obtain ⟨keyShape, invariant⟩ :=
    writeAhead_run left.resumable policy input moves
  have storedShape : session.stored = session.memory.load key := by
    rw [stored, keyShape]
  rw [← storedShape]
  refine ⟨?_, ?_, ?_, ?_⟩
  · intro event offered live unended
    exact ⟨_, stored_of_live invariant offered live unended,
      Progress.ofEvents_events _, Progress.ofEvents_lastNumber _,
      Progress.ofEvents_responseId _, Progress.ofEvents_lastMessageId _⟩
  · intro event offered terminal
    exact stored_of_last invariant offered terminal
  · intro lastNumber offered
    exact stored_of_restarted invariant offered
  · intro ended
    exact stored_of_ended invariant ended

end Session

namespace ShortRun

/-- The first event of a short run. -/
def started : Event :=
  (EventBody.runStarted "thread" "run").toEvent.numbered 1

/-- The second event of a short run. -/
def spoken : Event :=
  (EventBody.textMessageStart "message" "assistant").toEvent.numbered 2

/-- The last event of a short run. -/
def finished : Event :=
  (EventBody.runFinished "thread" "run" none).toEvent.numbered 3

/-- The input of a short run. -/
def input : RunInput :=
  { threadId := "thread", runId := "run", messages := [] }

/-- A consumer goes away while it receives the first event. -/
def interrupted : List Move :=
  [.answer .done, .answer .done, .answer (.frame (.event started)), .answer .done]

/-- The store that the consumer leaves behind. -/
def leftOver : Memory :=
  ((Session.start {} "run" input []).run interrupted).memory

/-- The next consumer receives the first event from the store and the second one live. -/
def resumed : List Move :=
  [.answer .done, .answer .done, .answer .done, .answer (.frame (.event spoken)),
   .answer .done]

end ShortRun

namespace Session

open ShortRun

/-- A stream that resumes what an interrupted one has left. -/
theorem stored_when_delivered_resumed :
    let session := (start {} "run" input leftOver).run resumed
    session.offered? = some (.event spoken) ∧
      session.isReplaying = false ∧
      ∃ progress,
        session.memory.load "run" = some progress ∧
          progress.events = [started, spoken] ∧
          progress.lastNumber = 2 ∧
          progress.responseId = some "run" ∧
          progress.lastMessageId = some "message" := by
  intro session
  have left : Left "run" leftOver :=
    .run {} input interrupted (.fresh rfl)
  have offered : session.offered? = some (.event spoken) := by
    decide
  have live : session.isReplaying = false := by
    decide
  have delivered : session.segment ++ [spoken] = [started, spoken] := by
    decide
  obtain ⟨progress, found, events, lastNumber, responseId, lastMessageId⟩ :=
    (stored_when_delivered left {} input resumed).1 spoken offered live rfl
  rw [delivered] at events lastNumber responseId lastMessageId
  exact ⟨offered, live, progress, found, events, lastNumber, responseId, lastMessageId⟩

end Session

end AgentWire.Client

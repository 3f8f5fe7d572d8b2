import AgentWire.Proofs.Client.Owed
import AgentWire.Proofs.Client.Rehearsal
import AgentWire.Proofs.Client.WriteAhead

namespace AgentWire.Client

/-!
# Streams over any server

Whatever a server sends, a stream hands over what it owes, in order: `Faithful`
says that what was handed over and what is pending is what is owed.  A stream that
has handed over the last event of a run, has read the mark behind it or has failed
hands over nothing more, and each request fits the events since the last restart.
-/

open Resume (Memory Progress)

/-- Whether an action is for a server or a timer to answer, or for nobody any more. -/
def Action.isOutside : Action → Bool
  | .connect _ | .read | .wait _ | .finish | .fail _ => true
  | _ => false

namespace Controller

/-- What the controller hands over before it next asks a server. -/
def pending (controller : Controller) : List Delivery :=
  match controller.stage with
  | .replaying event rest => (event :: rest).map .event
  | .forgetting =>
      if controller.delivered then [.restarted controller.progress.lastNumber] else []
  | .forgotten => [.restarted controller.progress.lastNumber]
  | .restarting event => [.restarted controller.progress.lastNumber, .event event]
  | .restarted lastNumber event => [.restarted lastNumber, .event event]
  | .saving event | .appending event | .settling event | .delivering event => [.event event]
  | .loading | .connecting | .reading | .closing | .waiting _ | .finished | .failed _ => []

variable {controller : Controller}

theorem pending_replay (controller : Controller) (events : List Event) :
    (controller.replay events).pending = events.map .event := by
  cases events <;> rfl

/-- A stream that starts hands over what the store holds. -/
theorem pending_begin (controller : Controller) (stored : Option Progress) :
    (controller.begin stored).pending = (stored.getD {}).events.map .event :=
  pending_replay _ _

/-- Behind a failed connection there is nothing to hand over, whether it is tried again or not. -/
theorem pending_interrupt (controller : Controller) (error : ClientError) :
    (controller.interrupt error).pending = [] := by
  by_cases allowed : controller.policy.allows (controller.failures + 1) = true <;>
    simp [pending, interrupt, allowed]

/-- Where a run cannot be resumed nothing is handed over before a fresh one is asked for. -/
theorem pending_fallBack (controller : Controller) (error : ClientError) :
    (controller.fallBack error).pending = [] := by
  by_cases retryable : error.isRetryable = true
  · simp [fallBack, retryable, pending_interrupt]
  · simp [fallBack, retryable, pending, goTo]

/-- An event that is accepted is handed over next, whatever has to be stored before. -/
theorem pending_accept (controller : Controller) (event : Event) :
    (controller.accept event).pending = [.event event] := by
  rcases controller.accept_stage event with stage | stage | stage <;>
    simp [pending, stage]

/-- An event that arrives leads to the items that it makes due behind the progress. -/
theorem pending_receive
    (stage : controller.stage = .reading)
    {segment : List Event}
    (reached : controller.progress.lastNumber = lastNumberOf segment)
    (event : Event) :
    (controller.receive event).pending = itemsOfEvent segment event := by
  have nothing : controller.pending = [] := by
    simp [pending, stage]
  have started : (controller.goTo (.restarting event)).pending =
      [.restarted (lastNumberOf segment), .event event] := by
    simp [pending, goTo, reached]
  cases numbered : event.sequenceNumber with
  | none =>
      simp [receive, admissionOf, itemsOfEvent, numbered, pending_accept]
  | some number =>
      simp only [receive, admissionOf, itemsOfEvent, numbered, reached]
      by_cases anew : number ≤ 1 ∧ 1 < lastNumberOf segment
      · simp [anew, started]
      · by_cases known : number ≤ lastNumberOf segment <;>
          simp [anew, known, nothing, pending_accept]

end Controller

/-- What ends a stream: the last event of a run, or the mark behind it. -/
def HasFinal (deliveries : List Delivery) (history : List Exchange) : Prop :=
  (∃ event, .event event ∈ deliveries ∧ event.isTerminal = true) ∨
    ⟨.read, .frame .done⟩ ∈ history

/-- Where the stream has ended by an exchange, the controller is closing or has finished. -/
theorem closing_of_final
    {controller next : Controller}
    {memory after : Memory}
    {exchange : Exchange}
    {segment : List Event}
    {deliveries : List Delivery}
    {history : List Exchange}
    (invariant : WriteAhead controller (memory.load controller.key) segment)
    (before :
      HasFinal deliveries history →
      controller.stage = .closing ∨ controller.stage = .finished)
    (taken : Transition controller memory exchange next after)
    (final :
      HasFinal (deliveries ++ exchange.delivery?.toList) (history ++ [exchange])) :
    next.stage = .closing ∨ next.stage = .finished := by
  have standing := invariant.standing
  have news :
      HasFinal deliveries history ∨
        (∃ event, exchange.delivery? = some (.event event) ∧ event.isTerminal = true) ∨
        exchange = ⟨.read, .frame .done⟩ := by
    rcases final with ⟨event, member, terminal⟩ | member
    · rcases List.mem_append.mp member with member | member
      · exact .inl (.inl ⟨event, member, terminal⟩)
      · exact .inr (.inl ⟨event, by simpa using member, terminal⟩)
    · rcases List.mem_append.mp member with member | member
      · exact .inl (.inr member)
      · exact .inr (.inr (List.mem_singleton.mp member).symm)
  rcases news with earlier | ⟨event, handed, terminal⟩ | rfl
  · have stage := before earlier
    cases taken <;> simp_all [Controller.goTo]
  · cases taken with
    | @replayed first rest stage =>
        -- What is replayed was stored, and no event that is stored ends its run.
        cases handed
        rw [stage] at standing
        obtain ⟨storedShape, eventsShape, -⟩ := standing
        have unended :=
          (invariant.resumable _ storedShape).unended event (by simp [eventsShape])
        simp [terminal] at unended
    | @delivered last stage =>
        cases handed
        exact .inl (by simp [Controller.goTo, terminal])
    | _ =>
        cases handed
  · cases taken with
    | marked stage =>
        exact .inl rfl

/--
What is due was handed over or is pending, all of it and of the store is in order,
and behind the end of a run the stream only closes.
-/
structure Faithful
    (controller : Controller)
    (stored : Option Progress)
    (deliveries : List Delivery)
    (history : List Exchange) :
    Prop where
  owed_eq : owed history = deliveries ++ controller.pending
  ordered : Ordered (owed history)
  stored_ordered :
    ∀ progress, stored = some progress → (numbersOf progress.events).Pairwise (· < ·)
  closing :
    HasFinal deliveries history →
    controller.stage = .closing ∨ controller.stage = .finished

namespace Faithful

variable
  {controller next : Controller}
  {stored : Option Progress}
  {memory after : Memory}
  {deliveries : List Delivery}
  {history : List Exchange}
  {exchange : Exchange}

/-- The progress of a controller that has caught up tells the last number of the segment. -/
theorem lastNumber_eq
    {segment : List Event}
    (invariant : WriteAhead controller stored segment)
    (caught : Caught controller.progress controller.delivered stored segment) :
    controller.progress.lastNumber = lastNumberOf segment := by
  rw [invariant.folded, caught.segment_eq]
  exact Progress.ofEvents_lastNumber _

/-- A refusal behind which the controller falls back makes nothing due: the run is not unknown. -/
theorem itemsOf_refused
    {error : ClientError}
    (past : List Delivery)
    (fallsBack : controller.refused error = controller.fallBack error) :
    itemsOf past ⟨.connect controller.request, .failed error⟩ = [] := by
  unfold itemsOf
  split
  · rename_i asked _
    cases asked
  · rename_i asked _
    cases asked
  · rename_i responseId lastNumber body asked given
    cases given
    have requested : controller.request = .resume responseId lastNumber := by
      simpa using asked
    have forgets :
        controller.refused (.transport 404 body) = controller.goTo .forgetting := by
      simp [Controller.refused, requested]
    have same := congrArg Controller.stage (forgets.symm.trans fallsBack)
    simp [Controller.goTo, Controller.fallBack, ClientError.isRetryable] at same
  · rfl

/-- What a transition makes due is handed over in it or is pending behind it. -/
theorem pending_transition
    (invariant :
      WriteAhead controller (memory.load controller.key) (segmentOf deliveries))
    (taken : Transition controller memory exchange next after) :
    controller.pending ++ itemsOf (deliveries ++ controller.pending) exchange =
      exchange.delivery?.toList ++ next.pending := by
  have standing := invariant.standing
  -- What a stage has pending does not depend on the rest of the controller if it is nothing.
  have silent :
      ∀ {stage : Stage},
        controller.stage = stage →
        (controller.goTo stage).pending = [] →
        controller.pending = [] := by
    rintro _ rfl quiet
    exact quiet
  cases taken with
  | loaded stage =>
      rw [Controller.pending_begin, silent stage rfl]
      rfl
  | @replayed event rest stage =>
      have now : controller.pending = .event event :: rest.map .event := by
        simp [Controller.pending, stage]
      simp [Controller.pending_replay, itemsOf, Exchange.delivery?, now]
  | unknownRun stage requested =>
      rw [stage] at standing
      have caught : Caught _ _ _ _ := standing
      have undelivered : segmentOf deliveries = [] ↔ controller.delivered = false := by
        simp [caught.segment_eq, caught.delivered_eq]
      have forgets :
          (controller.goTo .forgetting).pending =
            if controller.delivered then [.restarted (lastNumberOf (segmentOf deliveries))]
            else [] := by
        simp [Controller.pending, Controller.goTo, lastNumber_eq invariant caught]
      simp only [forgets, silent stage rfl, itemsOf, requested, Exchange.delivery?,
        List.append_nil, List.nil_append, Option.toList_none, undelivered]
      cases controller.delivered <;> rfl
  | @refused error stage fallsBack =>
      rw [Controller.pending_fallBack, silent stage rfl, itemsOf_refused _ fallsBack]
      rfl
  | received stage =>
      rw [stage] at standing
      have reached := lastNumber_eq invariant standing
      rw [Controller.pending_receive stage reached, silent stage rfl, List.append_nil]
      rfl
  | ended stage =>
      rw [Controller.pending_interrupt, silent stage rfl]
      rfl
  | broken stage =>
      rw [Controller.pending_fallBack, silent stage rfl]
      rfl
  | @restarted lastNumber event stage =>
      have now : controller.pending = [.restarted lastNumber, .event event] := by
        simp [Controller.pending, stage]
      simp [Controller.pending_accept, itemsOf, Exchange.delivery?, now]
  | forgot stage =>
      cases given : controller.delivered <;>
        simp [itemsOf, Exchange.delivery?, Controller.pending, Controller.goTo,
          Controller.forget, stage, given]
  | @delivered event stage =>
      have now : controller.pending = [.event event] := by
        simp [Controller.pending, stage]
      have behind :
          (controller.goTo (if event.isTerminal then .closing else .reading)).pending = [] := by
        cases terminal : event.isTerminal <;>
          simp [Controller.pending, Controller.goTo]
      rw [behind, now]
      rfl
  | opened stage | gaveUp stage | marked stage | cleared stage | saved stage | appended stage
  | settled stage | closed stage | waited stage | cancelled stage =>
      simp [itemsOf, Exchange.delivery?, Controller.pending, Controller.goTo,
        Controller.forget, stage]

/-- What is stored stays in order: it is only ever replaced by what was due. -/
theorem stored_transition
    (invariant :
      WriteAhead controller (memory.load controller.key) (segmentOf deliveries))
    (before : Faithful controller (memory.load controller.key) deliveries history)
    (taken : Transition controller memory exchange next after)
    (progress : Progress)
    (found : after.load controller.key = some progress) :
    (numbersOf progress.events).Pairwise (· < ·) := by
  have standing := invariant.standing
  have written :
      ∀ event,
        controller.stage = .saving event ∨ controller.stage = .appending event →
        (numbersOf controller.progress.events).Pairwise (· < ·) := by
    intro event stage
    have increasing := before.ordered.segment
    have eventsShape : controller.progress.events = segmentOf deliveries ++ [event] := by
      rcases stage with stage | stage <;>
        · rw [stage] at standing
          exact standing.2.1
    have dueShape : owed history = deliveries ++ [event].map .event := by
      rw [before.owed_eq]
      rcases stage with stage | stage <;>
        simp [Controller.pending, stage]
    rwa [dueShape, segmentOf_append_events, ← eventsShape] at increasing
  cases taken with
  | saved stage =>
      rw [Memory.load_save] at found
      cases found
      exact written _ (.inl stage)
  | appended stage =>
      rw [invariant.append_eq stage] at found
      cases found
      exact written _ (.inr stage)
  | forgot | cleared | settled | closed =>
      rw [Memory.load_clear] at found
      cases found
  | loaded | replayed | opened | unknownRun | refused | gaveUp | received | marked | ended
  | broken | restarted | delivered | waited | cancelled =>
      exact before.stored_ordered progress found

/-- Every transition keeps the invariant. -/
theorem transition
    (invariant :
      WriteAhead controller (memory.load controller.key) (segmentOf deliveries))
    (before : Faithful controller (memory.load controller.key) deliveries history)
    (taken : Transition controller memory exchange next after) :
    Faithful next (after.load next.key) (deliveries ++ exchange.delivery?.toList)
      (history ++ [exchange]) where
  owed_eq := by
    rw [owed_concat, before.owed_eq, List.append_assoc, pending_transition invariant taken,
      List.append_assoc]
  ordered := by
    rw [owed_concat]
    apply before.ordered.append_itemsOf
    intro progress shape
    cases taken <;>
      simp only [Exchange.mk.injEq, Answer.loaded.injEq, reduceCtorEq, and_false] at shape
    case loaded stage =>
      -- Nothing was handed over when a stream loads, so what is loaded starts the segment.
      have standing := invariant.standing
      rw [stage] at standing
      have nothing : segmentOf (owed history) = [] := by
        rw [before.owed_eq]
        simpa [Controller.pending, stage, Standing] using standing
      rw [nothing]
      exact before.stored_ordered progress shape.2
  stored_ordered := by
    rw [taken.key_eq]
    exact before.stored_transition invariant taken
  closing := closing_of_final invariant before.closing taken

end Faithful

namespace Session

variable
  {key : String}
  {memory : Memory}
  {session : Session}

/-- A run over a store in order stays write-ahead and hands over what the server owes. -/
theorem faithful_run
    (resumable : Resumable (memory.load key))
    (ordered :
      ∀ progress,
        memory.load key = some progress → (numbersOf progress.events).Pairwise (· < ·))
    (policy : RetryPolicy)
    (input : RunInput)
    (moves : List Move) :
    let session := (start policy key input memory).run moves
    WriteAhead session.controller session.stored session.segment ∧
      Faithful session.controller session.stored session.deliveries session.history := by
  have fresh :
      Faithful (start policy key input memory).controller (memory.load key) [] [] :=
    ⟨rfl, .nil, ordered, by simp [HasFinal]⟩
  refine run_keeps
    (fun session =>
      WriteAhead session.controller session.stored session.segment ∧
        Faithful session.controller session.stored session.deliveries session.history)
    ?_ ?_ ⟨.start resumable policy key input, fresh⟩ moves
  · rintro session exchange controller memory ⟨invariant, before⟩ taken
    rw [segment_concat, deliveries_concat]
    exact ⟨invariant.transition taken, before.transition invariant taken⟩
  · rintro session memory ⟨invariant, before⟩ same
    have storedShape : stored { session with memory } = session.stored := same
    rw [storedShape]
    exact ⟨invariant, before⟩

/-- What streams leave in a store is in order. -/
theorem Left.ordered (left : Left key memory) :
    ∀ progress,
      memory.load key = some progress → (numbersOf progress.events).Pairwise (· < ·) := by
  induction left with
  | fresh empty =>
      intro progress found
      rw [empty] at found
      cases found
  | run policy input moves earlier inductionHypothesis =>
      obtain ⟨-, faithful⟩ :=
        faithful_run earlier.resumable inductionHypothesis policy input moves
      obtain ⟨keyShape, -⟩ := writeAhead_run earlier.resumable policy input moves
      have ordered := faithful.stored_ordered
      rwa [stored, keyShape] at ordered

/-- What was handed over is always a first part of what is owed. -/
theorem yielded_prefix
    (faithful :
      Faithful session.controller session.stored session.deliveries session.history) :
    session.yielded <+: owed session.history := by
  rw [faithful.owed_eq, yielded]
  apply (List.prefix_append_right_inj _).mpr
  cases stage : session.controller.stage <;>
    simp [offered?, Controller.action, Controller.pending, stage]

/-- When the controller waits for somebody else, all that is owed was handed over. -/
theorem yielded_of_outside
    (faithful :
      Faithful session.controller session.stored session.deliveries session.history)
    (outside : session.controller.action.isOutside = true) :
    session.yielded = owed session.history := by
  rw [faithful.owed_eq, yielded]
  cases stage : session.controller.stage <;>
    simp_all [offered?, Controller.action, Controller.pending, Action.isOutside]

/-! ### Handing over what is pending -/

/-- The moves of surroundings in which a consumer goes on asking. -/
def asking (count : Nat) : List Move :=
  .replicate count (.answer .done)

theorem run_asking_succ (session : Session) (count : Nat) :
    session.run (asking (count + 1)) = (session.step (.answer .done)).run (asking count) :=
  rfl

/-- One step by itself, with what is handed over and what is then pending. -/
theorem step_done
    {answer : Answer}
    {memory : Memory}
    (replied : session.reply? .done = some (answer, memory))
    (kept :
      session.yielded ++ (session.controller.advance answer).pending =
        session.deliveries ++ session.controller.pending)
    (later :
      ∀ next : Session,
        next.controller = session.controller.advance answer →
        ∃ count,
          (next.run (asking count)).yielded = next.deliveries ++ next.controller.pending) :
    ∃ count,
      (session.run (asking count)).yielded =
        session.deliveries ++ session.controller.pending := by
  obtain ⟨controller, -, deliveries⟩ := step_of_reply? replied
  obtain ⟨count, shape⟩ := later _ controller
  refine ⟨count + 1, ?_⟩
  rw [run_asking_succ, shape, controller, deliveries, kept]

/-- An event that is about to be stored is handed over behind the step that stores it. -/
theorem hands_over_stored
    {event : Event}
    (stage :
      session.controller.stage = .saving event ∨
        session.controller.stage = .appending event ∨
        session.controller.stage = .settling event) :
    ∃ count,
      (session.run (asking count)).yielded =
        session.deliveries ++ session.controller.pending := by
  have replied :
      ∃ memory,
        session.reply? .done = some (.done, memory) ∧
          session.controller.advance .done = session.controller.goTo (.delivering event) ∧
          session.controller.pending = [.event event] ∧
          session.offered? = none := by
    rcases stage with stage | stage | stage <;>
      simp [reply?, offered?, Controller.action, Controller.advance, Controller.proceed,
        Controller.pending, stage]
  obtain ⟨memory, replied, advanced, pending, offered⟩ := replied
  refine step_done replied ?_ ?_
  · rw [advanced, pending, yielded, offered]
    simp [Controller.pending, Controller.goTo]
  · intro next shape
    refine ⟨0, ?_⟩
    rw [shape, advanced]
    have offered : next.offered? = some (.event event) := by
      simp [offered?, Controller.action, shape, advanced, Controller.goTo]
    simp [asking, run, yielded, offered, Controller.pending, Controller.goTo]

/-- Behind the notice of a restart the first event of the fresh run is handed over. -/
theorem hands_over_restarted
    {lastNumber : UInt64}
    {event : Event}
    (stage : session.controller.stage = .restarted lastNumber event) :
    ∃ count,
      (session.run (asking count)).yielded =
        session.deliveries ++ session.controller.pending := by
  have replied : session.reply? .done = some (.done, session.memory) := by
    simp [reply?, Controller.action, stage]
  have advanced : session.controller.advance .done = session.controller.accept event := by
    simp [Controller.advance, Controller.proceed, stage]
  refine step_done replied ?_ ?_
  · rw [advanced, Controller.pending_accept]
    simp [yielded, offered?, Controller.action, Controller.pending, stage]
  · intro next shape
    have stored := Controller.accept_stage session.controller event
    rw [← advanced, ← shape] at stored
    exact hands_over_stored stored

/-- Stored events are handed over one behind the other for as long as they are asked for. -/
theorem hands_over_replaying
    {event : Event}
    {rest : List Event}
    (stage : session.controller.stage = .replaying event rest) :
    ∃ count,
      (session.run (asking count)).yielded =
        session.deliveries ++ session.controller.pending := by
  induction rest generalizing session event with
  | nil =>
      refine ⟨0, ?_⟩
      simp [asking, run, yielded, offered?, Controller.action, Controller.pending, stage]
  | cons following rest inductionHypothesis =>
      have replied : session.reply? .done = some (.done, session.memory) := by
        simp [reply?, Controller.action, stage]
      have advanced :
          session.controller.advance .done = session.controller.replay (following :: rest) := by
        simp [Controller.advance, Controller.proceed, stage]
      refine step_done replied ?_ ?_
      · rw [advanced, Controller.pending_replay]
        simp [yielded, offered?, Controller.action, Controller.pending, stage]
      · intro next shape
        have nextStage : next.controller.stage = .replaying following rest := by
          rw [shape, advanced]
          rfl
        exact inductionHypothesis nextStage

/-- A consumer that goes on asking receives all that is pending, before a server is asked. -/
theorem hands_over (session : Session) :
    ∃ count,
      (session.run (asking count)).yielded =
        session.deliveries ++ session.controller.pending := by
  cases stage : session.controller.stage with
  | replaying event rest =>
      exact hands_over_replaying stage
  | saving event =>
      exact hands_over_stored (.inl stage)
  | appending event =>
      exact hands_over_stored (.inr (.inl stage))
  | settling event =>
      exact hands_over_stored (.inr (.inr stage))
  | restarted lastNumber event =>
      exact hands_over_restarted stage
  | restarting event =>
      -- The store is cleared first; behind this the restart and the event are handed over.
      have replied :
          session.reply? .done =
            some (.done, session.memory.clear session.controller.key) := by
        simp [reply?, Controller.action, stage]
      refine step_done replied ?_ ?_
      · simp [yielded, offered?, Controller.action, Controller.advance, Controller.proceed,
          Controller.goTo, Controller.pending, stage]
      · intro next shape
        have nextStage :
            next.controller.stage =
              .restarted session.controller.progress.lastNumber event := by
          simp [shape, Controller.advance, Controller.proceed, Controller.goTo, stage]
        exact hands_over_restarted nextStage
  | forgetting =>
      cases delivered : session.controller.delivered with
      | false =>
          refine ⟨0, ?_⟩
          simp [asking, run, yielded, offered?, Controller.action, Controller.pending, stage,
            delivered]
      | true =>
          have replied :
              session.reply? .done =
                some (.done, session.memory.clear session.controller.key) := by
            simp [reply?, Controller.action, stage]
          refine step_done replied ?_ ?_
          · simp [yielded, offered?, Controller.action, Controller.advance,
              Controller.proceed, Controller.goTo, Controller.pending, stage, delivered]
          · intro next shape
            refine ⟨0, ?_⟩
            simp [asking, run, yielded, offered?, Controller.action, Controller.pending,
              shape, Controller.advance, Controller.proceed, Controller.goTo, stage, delivered]
  | loading | connecting | forgotten | reading | delivering | closing | waiting | finished
  | failed =>
      refine ⟨0, ?_⟩
      simp [asking, run, yielded, offered?, Controller.action, Controller.pending, stage]

/-! ### The end of a stream -/

/-- Whether the last item is being handed over or was. -/
def isEnding (session : Session) : Bool :=
  match session.controller.stage with
  | .delivering event => event.isTerminal
  | .closing | .finished => true
  | _ => false

/-- Once the last item is offered, nothing that happens adds to what was handed over. -/
theorem step_of_ending
    (ending : session.isEnding = true)
    (move : Move) :
    (session.step move).isEnding = true ∧
      (session.step move).yielded = session.yielded := by
  rcases session.step_cases move with
    ⟨exchange, controller, memory, taken, shape⟩ | ⟨memory, -, shape⟩
  · rw [shape]
    cases taken with
    | @delivered event stage =>
        have terminal : event.isTerminal = true := by
          simpa [isEnding, stage] using ending
        refine ⟨by simp [isEnding, Controller.goTo, terminal], ?_⟩
        rw [yielded, deliveries_concat]
        simp [yielded, deliveries, offered?, Controller.action, Controller.goTo, stage,
          terminal, Exchange.delivery?]
    | closed stage =>
        refine ⟨by simp [isEnding, Controller.goTo], ?_⟩
        rw [yielded, deliveries_concat]
        simp [yielded, deliveries, offered?, Controller.action, Controller.goTo, stage,
          Exchange.delivery?]
    | _ =>
        rename_i stage
        simp_all [isEnding]
  · rw [shape]
    exact ⟨ending, rfl⟩

/-- Behind the last item nothing is handed over, and the stream does not fail. -/
theorem run_of_ending
    (ending : session.isEnding = true)
    (moves : List Move) :
    (session.run moves).yielded = session.yielded ∧
      ∀ error, (session.run moves).controller.action ≠ .fail error := by
  induction moves generalizing session with
  | nil =>
      refine ⟨rfl, ?_⟩
      rintro error failed
      simp only [run, List.foldl_nil] at failed
      cases stage : session.controller.stage <;>
        simp [isEnding, Controller.action, stage] at ending failed
  | cons move rest inductionHypothesis =>
      obtain ⟨endingNext, same⟩ := step_of_ending ending move
      rw [← same]
      exact inductionHypothesis endingNext

/-- A stream that has failed hands over nothing more. -/
theorem run_of_failed
    {error : ClientError}
    (failed : session.controller.action = .fail error)
    (moves : List Move) :
    (session.run moves).yielded = session.yielded := by
  induction moves generalizing session with
  | nil =>
      rfl
  | cons move rest inductionHypothesis =>
      have unchanged :
          (session.step move).controller = session.controller ∧
            (session.step move).history = session.history := by
        cases move with
        | answer given =>
            simp [step, reply?, failed]
        | elsewhere key progress =>
            simp only [step]
            split <;> exact ⟨rfl, rfl⟩
      obtain ⟨controller, history⟩ := unchanged
      have same : (session.step move).yielded = session.yielded := by
        simp [yielded, deliveries, offered?, controller, history]
      rw [← same]
      exact inductionHypothesis (controller ▸ failed)

/-- A stream that was handed its last event, or was told of the end, is ending. -/
theorem ending_of_final
    (invariant : WriteAhead session.controller session.stored session.segment)
    (faithful :
      Faithful session.controller session.stored session.deliveries session.history)
    (final : HasFinal session.yielded session.history) :
    session.isEnding = true := by
  have past :
      HasFinal session.deliveries session.history ∨
        ∃ event, session.offered? = some (.event event) ∧ event.isTerminal = true := by
    rcases final with ⟨event, member, terminal⟩ | marked
    · rcases List.mem_append.mp member with handed | offered
      · exact .inl (.inl ⟨event, handed, terminal⟩)
      · exact .inr ⟨event, by simpa using offered, terminal⟩
    · exact .inl (.inr marked)
  rcases past with handed | ⟨event, offered, terminal⟩
  · rcases faithful.closing handed with stage | stage <;>
      simp [isEnding, stage]
  · rcases stage_of_offered_event offered with ⟨rest, stage⟩ | stage
    · have standing := invariant.standing
      rw [stage] at standing
      obtain ⟨storedShape, eventsShape, -⟩ := standing
      have unended :=
        (invariant.resumable _ storedShape).unended event (by simp [eventsShape])
      simp [terminal] at unended
    · simp [isEnding, stage, terminal]

/-! ### Requests -/

/-- What is sent to a server is the request of the controller. -/
theorem request_of_connect
    {request : Request}
    (asked : session.controller.action = .connect request) :
    session.controller.stage = .connecting ∧ session.controller.request = request := by
  cases stage : session.controller.stage <;>
    simp_all [Controller.action]

/-- A request to go on with a run names the run of the segment, and stands where it ends. -/
theorem request_fits
    (invariant : WriteAhead session.controller session.stored session.segment)
    {request : Request}
    (asked : session.controller.action = .connect request) :
    match request with
    | .resume responseId startingAfter =>
        (session.segment.filterMap (Progress.announcedId? ·.body)).getLast? =
            some responseId ∧
          startingAfter = lastNumberOf session.segment
    | .create _ =>
        session.segment.filterMap (Progress.announcedId? ·.body) = [] := by
  obtain ⟨stage, requested⟩ := request_of_connect asked
  have standing := invariant.standing
  rw [stage] at standing
  have caught : Caught _ _ _ _ := standing
  have announced :
      session.controller.progress.responseId =
        (session.segment.filterMap (Progress.announcedId? ·.body)).getLast? := by
    rw [invariant.folded, ← caught.segment_eq]
    exact Progress.ofEvents_responseId _
  have reached := Faithful.lastNumber_eq invariant caught
  rw [Controller.request] at requested
  split at requested
  · rename_i responseId known
    subst requested
    exact ⟨announced.symm.trans known, reached⟩
  · rename_i unknown
    subst requested
    exact List.getLast?_eq_none_iff.mp (announced.symm.trans unknown)

/--
Whatever servers and timers do, and whatever streams left in the store: between
two restarts the numbers that a stream hands over increase; it hands over what
the store held and all events that arrive, in order, but those whose number was
reached; a restart ends a segment with events and tells its last number; nothing
comes behind the last event, the mark behind it or an error; and a request goes
on with the run that the segment announced behind its last number, or starts one
if the segment announced none.
-/
theorem safe_under_any_server
    (left : Left key memory)
    (policy : RetryPolicy)
    (input : RunInput)
    (moves : List Move) :
    let session := (start policy key input memory).run moves
    (∀ events,
      events.map Delivery.event <:+: session.yielded →
      (numbersOf events).Pairwise (· < ·)) ∧
    (session.yielded <+: owed session.history ∧
      (session.controller.action.isOutside = true →
        session.yielded = owed session.history) ∧
      ∃ count, (session.run (asking count)).yielded = owed session.history) ∧
    (∀ before lastNumber,
      before ++ [.restarted lastNumber] <+: session.yielded →
      segmentOf before ≠ [] ∧ lastNumber = lastNumberOf (segmentOf before)) ∧
    (HasFinal session.yielded session.history →
      ∀ more,
        (session.run more).yielded = session.yielded ∧
          ∀ error, (session.run more).controller.action ≠ .fail error) ∧
    (∀ error,
      session.controller.action = .fail error →
      ∀ more, (session.run more).yielded = session.yielded) ∧
    (∀ responseId startingAfter,
      session.controller.action = .connect (.resume responseId startingAfter) →
      (session.segment.filterMap (Progress.announcedId? ·.body)).getLast? = some responseId ∧
        startingAfter = lastNumberOf session.segment) ∧
    (∀ given,
      session.controller.action = .connect (.create given) →
      session.segment.filterMap (Progress.announcedId? ·.body) = []) := by
  intro session
  obtain ⟨invariant, faithful⟩ :=
    faithful_run left.resumable left.ordered policy input moves
  have first := yielded_prefix faithful
  refine ⟨?_, ⟨first, yielded_of_outside faithful, ?_⟩, ?_, ?_, ?_, ?_, ?_⟩
  · exact faithful.ordered.of_initial first
  · rw [faithful.owed_eq]
    exact hands_over session
  · exact (told_owed session.history).of_initial first
  · intro final more
    exact run_of_ending (ending_of_final invariant faithful final) more
  · intro error failed more
    exact run_of_failed failed more
  · intro responseId startingAfter asked
    exact request_fits invariant asked
  · intro given asked
    exact request_fits invariant asked

end Session

namespace ShortRun

/-- The server repeats an event, then numbers the run anew and ends it. -/
def renumbered : List Move :=
  resumed ++
    [.answer .done, .answer (.frame (.event spoken)), .answer (.frame (.event started)),
     .answer .done, .answer .done, .answer .done, .answer .done,
     .answer (.frame (.event finished)), .answer .done, .answer .done]

end ShortRun

namespace Session

open ShortRun

/-- A server that numbers its fresh run from one behind an interrupted run. -/
theorem safe_under_any_server_renumbered :
    let session := (start {} "run" input leftOver).run renumbered
    session.yielded =
        [.event started, .event spoken, .restarted 2, .event started, .event finished] ∧
      session.yielded <+: owed session.history ∧
      segmentOf [.event started, .event spoken] ≠ [] ∧
      2 = lastNumberOf (segmentOf [.event started, .event spoken]) ∧
      ∀ more, (session.run more).yielded = session.yielded := by
  intro session
  have left : Left "run" leftOver :=
    .run {} input interrupted (.fresh rfl)
  have yielded :
      session.yielded =
        [.event started, .event spoken, .restarted 2, .event started, .event finished] := by
    decide
  obtain ⟨-, ⟨first, -, -⟩, told, final, -⟩ :=
    safe_under_any_server left {} input renumbered
  have restarts : [.event started, .event spoken] ++ [.restarted 2] <+: session.yielded :=
    yielded ▸ ⟨_, rfl⟩
  have ends : HasFinal session.yielded session.history :=
    .inl ⟨finished, by simp [yielded], rfl⟩
  obtain ⟨something, last⟩ := told _ _ restarts
  exact ⟨yielded, first, something, last, fun more => (final ends more).1⟩

end Session

end AgentWire.Client

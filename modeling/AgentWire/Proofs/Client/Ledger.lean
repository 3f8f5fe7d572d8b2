import AgentWire.Proofs.Client.Play
import AgentWire.Proofs.Client.WriteAhead

namespace AgentWire.Client

/-!
# What a call has taken is stored

Whatever progress a call starts from, the events that its ledger holds are stored in order
at every step (`Secured`): an event is stored before the call takes it, and the ledger is
empty before what is stored is cleared.  A stream ends without an error only if the ledger
says that the run is complete.
-/

open Resume (Memory Progress)

/-! ### The end of a run -/

namespace Controller

/-- Whether a controller only has to clear the progress of a run that is complete. -/
def isClosing (controller : Controller) : Bool :=
  match controller.stage with
  | .closing | .finished => true
  | _ => false

variable {controller : Controller}

/-- A replay leads on to the next event, or to a request. -/
@[simp] theorem isClosing_replay (controller : Controller) (events : List Event) :
    (controller.replay events).isClosing = false := by
  cases events <;> rfl

@[simp] theorem isClosing_accept (controller : Controller) (event : Event) :
    (controller.accept event).isClosing = false := by
  rcases controller.accept_stage event with stage | stage | stage <;>
    simp [isClosing, stage]

@[simp] theorem isClosing_interrupt (controller : Controller) (error : ClientError) :
    (controller.interrupt error).isClosing = false := by
  by_cases allowed : controller.policy.allows (controller.failures + 1) = true <;>
    simp [isClosing, interrupt, allowed]

@[simp] theorem isClosing_fallBack (controller : Controller) (error : ClientError) :
    (controller.fallBack error).isClosing = false := by
  unfold fallBack
  split
  · exact isClosing_interrupt controller error
  · rfl

/-- An event that arrives has to be handed over first, even if it is the last one. -/
theorem isClosing_receive (stage : controller.stage = .reading) (event : Event) :
    (controller.receive event).isClosing = false := by
  unfold receive
  split
  · simp [isClosing, stage]
  · rfl
  · exact isClosing_accept controller event

/-- A step closes a run if it succeeds and its goal does, or if nothing changes. -/
theorem isClosing_proceed
    {next : Controller}
    {answer : Answer}
    (closes : (controller.proceed next answer).isClosing = true) :
    controller.isClosing = true ∨ next.isClosing = true := by
  cases answer with
  | done => exact .inr closes
  | failed => cases closes
  | loaded | frame | closed => exact .inl closes

@[simp] theorem isClosing_refused (controller : Controller) (error : ClientError) :
    (controller.refused error).isClosing = false := by
  rcases controller.refused_cases error with
    fallsBack | ⟨body, responseId, lastNumber, -, -, forgets⟩
  · rw [fallsBack, isClosing_fallBack]
  · rw [forgets]
    rfl

/-- A controller closes a run because of its last event or of the mark behind it. -/
theorem closing_of_advance
    {answer : Answer}
    (closes : (controller.advance answer).isClosing = true) :
    controller.isClosing = true ∨
      (controller.stage = .reading ∧ answer = .frame .done) ∨
      ∃ event, controller.stage = .delivering event ∧ event.isTerminal = true := by
  -- Only the mark of the end and the last event of a run lead to the closing stage.
  unfold advance at closes
  cases stage : controller.stage with
  | closing | finished =>
      exact .inl (by simp [isClosing, stage])
  | failed =>
      simp only [stage] at closes
      exact .inl closes
  | loading =>
      simp only [stage] at closes
      split at closes
      · simp [begin] at closes
      · cases closes
      · exact .inl closes
  | connecting =>
      simp only [stage] at closes
      split at closes
      · cases closes
      · simp at closes
      · exact .inl closes
  | reading =>
      simp only [stage] at closes
      split at closes
      · simp [isClosing_receive stage] at closes
      · exact .inr (.inl ⟨rfl, rfl⟩)
      · simp at closes
      · simp at closes
      · exact .inl closes
  | forgetting =>
      simp only [stage] at closes
      rcases isClosing_proceed closes with closes | closes
      · exact .inl closes
      · split at closes <;> cases closes
  | delivering event =>
      simp only [stage] at closes
      rcases isClosing_proceed closes with closes | closes
      · exact .inl closes
      · cases terminal : event.isTerminal with
        | true => exact .inr (.inr ⟨event, rfl, terminal⟩)
        | false => simp [terminal, goTo, isClosing] at closes
  | replaying event rest =>
      simp only [stage] at closes
      rcases isClosing_proceed closes with closes | closes
      · exact .inl closes
      · simp at closes
  | restarted lastNumber event =>
      simp only [stage] at closes
      rcases isClosing_proceed closes with closes | closes
      · exact .inl closes
      · simp at closes
  | forgotten | restarting | saving | appending | settling | waiting =>
      simp only [stage] at closes
      rcases isClosing_proceed closes with closes | closes
      · exact .inl closes
      · cases closes

/-- A controller that offers an item does not close its run yet. -/
theorem isClosing_of_deliver
    {item : Delivery}
    (offered : controller.action = .deliver item) :
    controller.isClosing = false := by
  cases stage : controller.stage <;>
    simp_all [action, isClosing]

end Controller

namespace Call

/-- Whether a call has taken the item that its stream offers. -/
def hasTaken (call : Call) : Bool :=
  match call.stage with
  | .following => false
  | .delivering _ | .failed _ => true

theorem hasTaken_eq_false_iff {call : Call} :
    call.hasTaken = false ↔ call.stage = .following := by
  cases stage : call.stage <;> simp [hasTaken, stage]

/-- A call that takes an item holds it, or is done with it at once. -/
theorem receive_cases (call : Call) (item : Delivery) :
    ((call.receive item).controller = call.controller ∧
        (call.receive item).hasTaken = true) ∨
      ((call.receive item).controller = call.controller.advance .done ∧
        (call.receive item).stage = .following) := by
  cases item with
  | restarted lastNumber =>
      exact .inl ⟨rfl, rfl⟩
  | event event =>
      cases taken : call.inbound.apply event with
      | error error =>
          rw [receive_refused taken]
          exact .inl ⟨rfl, rfl⟩
      | ok result =>
          obtain ⟨inbound, update?⟩ := result
          cases update? with
          | none =>
              rw [receive_silent taken]
              exact .inr ⟨rfl, rfl⟩
          | some update =>
              rw [receive_told taken]
              exact .inl ⟨rfl, rfl⟩

end Call

namespace Play

variable {play next : Play}

/-- A call that closes its run, or hands over its last event, knows that it is complete. -/
structure Informed (play : Play) : Prop where
  poised : play.call.Poised
  closing : play.call.controller.isClosing = true → play.ledger.complete = true
  offering :
    ∀ update event,
      play.call.stage = .delivering update →
      play.call.controller.stage = .delivering event →
      event.isTerminal = true →
      play.ledger.complete = true

/-- A call whose stream offers an item is informed if it knows what the last event means. -/
theorem Informed.offer
    {call : Call}
    {item : Delivery}
    {ledger : Ledger}
    (offered : call.controller.action = .deliver item)
    (informed :
      ∀ event,
        call.controller.stage = .delivering event →
        event.isTerminal = true →
        ledger.complete = true)
    (scene : Scene) :
    Informed { call, scene, ledger } where
  poised := fun _ _ => ⟨item, offered⟩
  closing := by simp [Controller.isClosing_of_deliver offered]
  offering := fun _ event _ => informed event

/-- A call that is done with an item closes its run only behind the last event. -/
theorem Informed.resume
    {controller : Controller}
    {call : Call}
    {item : Delivery}
    {ledger : Ledger}
    (offered : controller.action = .deliver item)
    (informed :
      ∀ event,
        controller.stage = .delivering event →
        event.isTerminal = true →
        ledger.complete = true)
    (goesOn : call.controller = controller.advance .done)
    (stage : call.stage = .following)
    (scene : Scene) :
    Informed { call, scene, ledger } := by
  refine ⟨by simp [Call.Poised, stage], fun closes => ?_, by simp [stage]⟩
  simp only [goesOn] at closes
  rcases Controller.closing_of_advance closes with
    closing | ⟨reading, -⟩ | ⟨event, stage, terminal⟩
  · simp [Controller.isClosing_of_deliver offered] at closing
  · simp [Controller.action, reading] at offered
  · exact informed event stage terminal

/-- A step keeps a call informed. -/
theorem Informed.transition
    (informed : Informed play)
    (taken : PlayTransition play next) :
    Informed next := by
  cases taken with
  | ended =>
      exact informed
  | @delivered update stage =>
      obtain ⟨item, offered⟩ := informed.poised update stage
      exact .resume offered (fun event => informed.offering update event stage) rfl rfl _
  | cancelled stage offered =>
      exact ⟨by simp [Call.Poised], informed.closing, by simp⟩
  | @taken item stage offered goesOn =>
      have informed (event : Event)
          (stage : play.call.controller.stage = .delivering event)
          (terminal : event.isTerminal = true) :
          (play.ledger.take item).complete = true := by
        simp only [Controller.action, stage, Action.deliver.injEq] at offered
        subst offered
        exact terminal
      rcases play.call.receive_cases item with ⟨same, holds⟩ | ⟨goesOn, follows⟩
      · rw [← same] at offered informed
        exact .offer offered informed play.scene
      · exact .resume offered informed goesOn follows play.scene
  | @followed action answer scene asked performed =>
      obtain ⟨stage, same, offersNothing, goesOn, -⟩ := CallSession.following_of_follow asked
      subst same
      refine ⟨by simp [Call.Poised, stage], fun closes => ?_, by simp [stage]⟩
      rcases Controller.closing_of_advance closes with
        closing | ⟨reading, rfl⟩ | ⟨event, delivering, -⟩
      · have known := informed.closing closing
        unfold Controller.isClosing at closing
        split at closing
        · next stage => simpa [Ledger.hear, Controller.action, stage] using known
        · next stage => exact absurd (by simp [Controller.action, stage]) goesOn
        · cases closing
      · simp [Ledger.hear, Controller.action, reading]
      · exact absurd (by simp [Controller.action, delivering]) (offersNothing (.event event))

/-- What happens around a call does not matter for what it knows. -/
theorem Informed.drift (informed : Informed play) (scene : Scene) :
    Informed { play with scene } :=
  ⟨informed.poised, informed.closing, informed.offering⟩

end Play

/-! ### Progress that is stored -/

/--
The events that a controller is handing over from what is stored.  The first of them is no
longer among them once the call has taken it.
-/
def Stage.stocked (taken : Bool) : Stage → List Event
  | .replaying event rest => if taken then rest else event :: rest
  | .delivering event => if taken || event.isTerminal then [] else [event]
  | _ => []

/-- How the progress of a controller and the progress that is held for it stand at a stage. -/
def Footing (progress held : Progress) (running : List Event) : Stage → Prop
  | .loading | .forgetting | .restarting _ | .closing => running = []
  | .replaying _ _ | .connecting | .reading | .waiting _ => held = progress
  | .forgotten => running = [] ∧ held = {}
  | .restarted _ _ => running = [] ∧ held = {} ∧ progress = {}
  | .saving event =>
      (running ++ [event]).Sublist progress.events ∧ event.isTerminal = false
  | .appending event => progress = held.record event ∧ event.isTerminal = false
  | .settling event => running = [] ∧ event.isTerminal = true
  | .delivering event =>
      (event.isTerminal = true → running = []) ∧ (event.isTerminal = false → held = progress)
  | .finished | .failed _ => True

/-- A stage needs no less of progress when no events are taken. -/
theorem Footing.dropped
    {progress held : Progress}
    {running : List Event}
    {stage : Stage}
    (footing : Footing progress held running stage) :
    Footing progress held [] stage := by
  cases stage with
  | saving => exact ⟨(List.sublist_append_right _ _).trans footing.1, footing.2⟩
  | delivering => exact ⟨fun _ => rfl, footing.2⟩
  | loading | forgetting | restarting | closing => rfl
  | forgotten | settling => exact ⟨rfl, footing.2⟩
  | restarted => exact ⟨rfl, footing.2⟩
  | replaying | connecting | reading | waiting | appending => exact footing
  | finished | failed => trivial

/-- The events that a call has taken of its run are held, in front of those to come. -/
structure Secured
    (controller : Controller)
    (taken : Bool)
    (held : Progress)
    (running : List Event) :
    Prop where
  kept : (running ++ controller.stage.stocked taken).Sublist held.events
  footing : Footing controller.progress held running controller.stage

namespace Secured

variable
  {controller next : Controller}
  {taken : Bool}
  {held : Progress}
  {running : List Event}
  {event : Event}

/-- In particular, what was taken is held in order. -/
theorem running_sublist (secured : Secured controller taken held running) :
    running.Sublist held.events :=
  (List.sublist_append_left _ _).trans secured.kept

/-- Nothing has to be held of a run that is over. -/
theorem dropped (secured : Secured controller taken held running) :
    Secured controller taken held [] :=
  ⟨(List.sublist_append_right _ _).trans secured.kept, secured.footing.dropped⟩

/-- What the server says of a run only ever makes less of it to be held. -/
theorem hear
    {ledger : Ledger}
    (secured : Secured next taken held ledger.running)
    (controller : Controller)
    (answer : Answer) :
    Secured next taken held (ledger.hear controller answer).running := by
  unfold Ledger.hear
  split
  · exact secured.dropped
  · split
    · exact secured
    · exact secured.dropped
    · split
      · exact secured.dropped
      · exact secured
  · exact secured.dropped
  · exact secured

/-- A stage at which nothing stored is handed over. -/
theorem goTo
    (stage : Stage)
    (kept : running.Sublist held.events)
    (nothing : stage.stocked taken = [])
    (footing : Footing controller.progress held running stage) :
    Secured (controller.goTo stage) taken held running :=
  ⟨by simpa [Controller.goTo, nothing] using kept, footing⟩

/-- What comes next of a replay is held. -/
theorem replay
    {events : List Event}
    (kept : (running ++ events).Sublist held.events)
    (same : held = controller.progress) :
    Secured (controller.replay events) false held running := by
  cases events with
  | nil => exact ⟨kept, same⟩
  | cons event rest => exact ⟨kept, same⟩

/-- A stream that begins goes on from what is held. -/
theorem begin (nothing : running = []) (stored : Option Progress) :
    Secured (controller.begin stored) false (stored.getD {}) running := by
  subst nothing
  exact replay (List.Sublist.refl _) rfl

/-- A stream that starts anew holds nothing, and nothing of it was taken. -/
theorem forget (nothing : running = []) : Secured controller.forget false {} running := by
  subst nothing
  exact ⟨List.Sublist.refl _, rfl⟩

/-- An interruption keeps what is held, whether the stream tries again or gives up. -/
theorem interrupt
    (kept : running.Sublist held.events)
    (same : held = controller.progress)
    (error : ClientError) :
    Secured (controller.interrupt error) false held running := by
  by_cases allowed : controller.policy.allows (controller.failures + 1) = true
  · exact ⟨by simpa [Controller.interrupt, allowed, Stage.stocked] using kept,
      by simpa [Controller.interrupt, allowed, Footing] using same⟩
  · exact ⟨by simpa [Controller.interrupt, allowed, Stage.stocked] using kept,
      by simp [Controller.interrupt, allowed, Footing]⟩

/-- So does an error, whether it may be retried or not. -/
theorem fallBack
    (kept : running.Sublist held.events)
    (same : held = controller.progress)
    (error : ClientError) :
    Secured (controller.fallBack error) false held running := by
  unfold Controller.fallBack
  split
  · exact interrupt kept same error
  · exact goTo (.failed error) kept rfl trivial

/-- An event that is accepted goes behind the others, unless it is the last one of its run. -/
theorem accept
    (kept : running.Sublist held.events)
    (same : held = controller.progress)
    (ended : event.isTerminal = true → running = []) :
    Secured (controller.accept event) false held running := by
  subst same
  unfold Controller.accept
  cases terminal : event.isTerminal with
  | true =>
      rw [ended terminal]
      exact ⟨by simp [Stage.stocked], by simp [Footing, terminal]⟩
  | false =>
      by_cases known :
        (controller.progress.record event).responseId = controller.progress.responseId
      · exact ⟨by simpa [known, Stage.stocked] using kept, by simp [known, Footing, terminal]⟩
      · refine ⟨by simpa [known, Stage.stocked] using kept, ?_⟩
        simpa [known, Footing, terminal] using kept.append_right [event]

/-- An event that arrives may be the last one of its run, or start it anew. -/
theorem receive
    {ledger : Ledger}
    (kept : ledger.running.Sublist held.events)
    (stage : controller.stage = .reading)
    (same : held = controller.progress) :
    Secured (controller.receive event) false held
      (ledger.hear controller (.frame (.event event))).running := by
  unfold Controller.receive
  simp only [Ledger.hear, Controller.action, stage]
  cases admissionOf controller.progress event with
  | duplicate =>
      exact ⟨by simpa [stage, Stage.stocked] using kept, by simpa [stage, Footing] using same⟩
  | restart =>
      exact goTo (.restarting event) (List.nil_sublist _) rfl rfl
  | forward =>
      cases terminal : event.isTerminal with
      | true => exact accept (List.nil_sublist _) same fun _ => rfl
      | false => exact accept kept same (by simp [terminal])

/-- An event is stored when it is handed over. -/
theorem stored
    (kept : (running ++ [event]).Sublist controller.progress.events)
    (unended : event.isTerminal = false) :
    Secured (controller.goTo (.delivering event)) false controller.progress running :=
  ⟨by simpa [Controller.goTo, Stage.stocked, unended] using kept, by simp [unended], fun _ => rfl⟩

/-- What the stream below a call does keeps what was taken. -/
theorem followed
    {memory after : Memory}
    {exchange : Exchange}
    {ledger : Ledger}
    (secured :
      Secured controller false ((memory.load controller.key).getD {}) ledger.running)
    (taken : Transition controller memory exchange next after)
    (silent : exchange.delivery? = none) :
    Secured next false ((after.load controller.key).getD {})
      (ledger.hear controller exchange.answer).running := by
  have kept := secured.running_sublist
  have footing := secured.footing
  cases taken with
  | loaded stage =>
      rw [stage] at footing
      exact (begin footing _).hear controller _
  | opened stage =>
      rw [stage] at footing
      exact (goTo .reading kept rfl footing).hear controller _
  | @unknownRun body responseId lastNumber stage requested =>
      -- With the run that is unknown its events are struck off the ledger.
      have nothing : (ledger.hear controller (.failed (.transport 404 body))).running = [] := by
        simp [Ledger.hear, Controller.action, stage, requested]
      rw [nothing]
      exact goTo .forgetting (List.nil_sublist _) rfl rfl
  | refused stage =>
      rw [stage] at footing
      exact (fallBack kept footing _).hear controller _
  | forgot stage =>
      rw [stage] at footing
      rw [Memory.load_clear]
      split
      · exact (goTo .forgotten (by simp [show ledger.running = [] from footing]) rfl
          ⟨footing, rfl⟩).hear controller _
      · exact (forget footing).hear controller _
  | received stage =>
      rw [stage] at footing
      exact receive kept stage footing
  | marked stage =>
      -- The mark of the end settles the run, so none of its events is still to be kept.
      have nothing : (ledger.hear controller (.frame .done)).running = [] := by
        simp [Ledger.hear, Controller.action, stage]
      rw [nothing]
      exact goTo .closing (List.nil_sublist _) rfl rfl
  | ended stage =>
      rw [stage] at footing
      exact (interrupt kept footing _).hear controller _
  | broken stage =>
      rw [stage] at footing
      exact (fallBack kept footing _).hear controller _
  | cleared stage =>
      rw [stage] at footing
      rw [Memory.load_clear]
      have nothing : ledger.running = [] := footing
      refine hear (goTo _ (by simp [nothing]) rfl ?_) controller _
      exact ⟨nothing, rfl, rfl⟩
  | saved stage =>
      rw [stage] at footing
      rw [Memory.load_save]
      exact hear (stored footing.1 footing.2) controller _
  | @appended event stage =>
      rw [stage] at footing
      obtain ⟨recorded, unended⟩ := footing
      -- What is stored takes the event with its number, just as the progress has.
      have same :
          (memory.append controller.key event controller.progress.lastNumber).load
              controller.key =
            some controller.progress := by
        rw [Memory.load_append, recorded, Progress.recordAt_record_lastNumber]
      rw [same]
      refine hear (stored ?_ unended) controller _
      rw [recorded, Progress.record_events]
      exact kept.append_right [event]
  | @settled event stage =>
      rw [stage] at footing
      obtain ⟨nothing, terminal⟩ := footing
      rw [Memory.load_clear]
      refine hear (goTo _ (by simp [nothing]) (by simp [Stage.stocked, terminal]) ?_) controller _
      exact ⟨fun _ => nothing, by simp [terminal]⟩
  | closed stage =>
      rw [stage] at footing
      have nothing : ledger.running = [] := footing
      rw [Memory.load_clear]
      exact (goTo .finished (by simp [nothing]) rfl trivial).hear controller _
  | waited stage =>
      rw [stage] at footing
      exact (goTo .connecting kept rfl footing).hear controller _
  | @cancelled delay error stage =>
      exact (goTo (.failed error) kept rfl trivial).hear controller _
  | replayed | gaveUp | restarted | delivered => cases silent

/-- What a call takes is held, since it was stored before. -/
theorem take
    {item : Delivery}
    {ledger : Ledger}
    (offered : controller.action = .deliver item)
    (secured : Secured controller false held ledger.running) :
    Secured controller true held (ledger.take item).running := by
  have kept := secured.kept
  have footing := secured.footing
  cases stage : controller.stage with
  | replaying event rest =>
      simp only [stage, Stage.stocked] at kept footing
      obtain rfl : .event event = item := by
        simpa [Controller.action, stage] using offered
      refine ⟨?_, by rw [stage]; exact footing⟩
      simp only [stage, Stage.stocked, Ledger.take]
      cases event.isTerminal with
      | true =>
          have behind : rest.Sublist (ledger.running ++ event :: rest) :=
            (List.sublist_cons_self event rest).trans (List.sublist_append_right _ _)
          exact behind.trans kept
      | false => simpa using kept
  | delivering event =>
      simp only [stage, Stage.stocked] at kept footing
      obtain rfl : .event event = item := by
        simpa [Controller.action, stage] using offered
      simp only [Ledger.take]
      cases terminal : event.isTerminal with
      | true => exact ⟨by simp [stage, Stage.stocked], by simp [stage, Footing, terminal]⟩
      | false =>
          refine ⟨?_, by simpa [stage, Footing, terminal] using footing⟩
          simpa [stage, Stage.stocked, terminal] using kept
  | forgotten | restarted =>
      simp only [stage] at footing
      simp only [Controller.action, stage, Action.deliver.injEq] at offered
      subst offered
      exact ⟨by simp [stage, Stage.stocked, Ledger.take], by rw [stage]; exact footing.dropped⟩
  | _ => simp [Controller.action, stage] at offered

/-- A call that is done with an item goes on behind it. -/
theorem resume
    {item : Delivery}
    (offered : controller.action = .deliver item)
    (secured : Secured controller true held running) :
    Secured (controller.advance .done) false held running := by
  have kept := secured.kept
  have footing := secured.footing
  cases stage : controller.stage with
  | replaying event rest =>
      simp only [stage, Stage.stocked, if_true] at kept footing
      simp only [Controller.advance, stage, Controller.proceed]
      exact replay kept footing
  | delivering event =>
      simp only [stage, Stage.stocked] at kept footing
      simp only [Controller.advance, stage, Controller.proceed]
      cases terminal : event.isTerminal with
      | true => exact goTo .closing (by simpa using kept) rfl (footing.1 terminal)
      | false => exact goTo .reading (by simpa using kept) rfl (footing.2 terminal)
  | forgotten =>
      simp only [stage] at footing
      obtain ⟨nothing, rfl⟩ := footing
      simp only [Controller.advance, stage, Controller.proceed]
      exact forget nothing
  | restarted lastNumber event =>
      simp only [stage] at footing
      obtain ⟨nothing, rfl, same⟩ := footing
      simp only [Controller.advance, stage, Controller.proceed]
      exact accept (by simp [nothing]) same.symm fun _ => nothing
  | _ => simp [Controller.action, stage] at offered

/-- A call that breaks off in front of an item needs no more than one that has taken it. -/
theorem leave (secured : Secured controller false held running) :
    Secured controller true held running := by
  refine ⟨(List.Sublist.append_left ?_ running).trans secured.kept, secured.footing⟩
  cases stage : controller.stage <;>
    simp [Stage.stocked]

end Secured

/-- A step below a call over a store in memory is one of its stream. -/
theorem Scene.perform_transition
    {scene next : Scene}
    {memory : Memory}
    {call : Call}
    {action : Action}
    {answer : Answer}
    (shows : scene.Shows memory [])
    (asked : call.action = .follow action)
    (performed : scene.perform call.controller.key action = (answer, next)) :
    ∃ after,
      Transition call.controller memory ⟨action, answer⟩ (call.controller.advance answer) after ∧
        next.Shows after [] := by
  obtain ⟨-, rfl, -, -⟩ := CallSession.following_of_follow asked
  let stream : Session := { controller := call.controller, memory }
  have below : scene.Shows stream.memory [] := shows
  obtain ⟨after, replied, shows⟩ := CallSession.reply?_of_follow asked rfl below
  rw [performed] at replied shows
  exact ⟨after, Session.transition_of_reply? replied, shows⟩

namespace Play

variable {play next : Play}

/-- What a call has taken is held under its key, and what was resumable stays so. -/
structure Covered
    (initial : Option Progress)
    (key : String)
    (play : Play)
    (memory : Memory) :
    Prop where
  shows : play.scene.Shows memory []
  key_eq : play.call.controller.key = key
  secured :
    Secured play.call.controller play.call.hasTaken ((memory.load key).getD {})
      play.ledger.running
  ahead :
    Resumable initial →
    ∃ segment, WriteAhead play.call.controller (memory.load key) segment

variable
  {initial : Option Progress}
  {key : String}
  {memory : Memory}

/-- A step of the stream below a call goes on from what is held, under the same key. -/
theorem Covered.follow
    {controller : Controller}
    {exchange : Exchange}
    {after : Memory}
    (covered : Covered initial key play memory)
    (taken : Transition play.call.controller memory exchange controller after) :
    controller.key = key ∧
      (Resumable initial → ∃ segment, WriteAhead controller (after.load key) segment) := by
  have same : controller.key = key := taken.key_eq.trans covered.key_eq
  refine ⟨same, fun resumable => ?_⟩
  obtain ⟨segment, ahead⟩ := covered.ahead resumable
  rw [← covered.key_eq] at ahead
  have next := ahead.transition taken
  rw [same] at next
  exact ⟨_, next⟩

/-- A call that is done with an item goes on from what is held. -/
theorem Covered.resume
    {item : Delivery}
    {call : Call}
    {scene : Scene}
    {ledger : Ledger}
    (covered : Covered initial key play memory)
    (offered : play.call.controller.action = .deliver item)
    (secured :
      Secured play.call.controller true ((memory.load key).getD {}) ledger.running)
    (shows : scene.Shows memory [])
    (goesOn : call.controller = play.call.controller.advance .done)
    (stage : call.stage = .following) :
    Covered initial key { call, scene, ledger } memory := by
  have delivers := Transition.of_delivery offered memory
  rw [← goesOn] at delivers
  obtain ⟨same, ahead⟩ := covered.follow delivers
  refine ⟨shows, same, ?_, ahead⟩
  rw [Call.hasTaken_eq_false_iff.mpr stage, goesOn]
  exact secured.resume offered

/-- A step keeps what a call has taken covered by the store. -/
theorem Covered.transition
    (covered : Covered initial key play memory)
    (informed : Informed play)
    (taken : PlayTransition play next) :
    ∃ after, Covered initial key next after := by
  have secured := covered.secured
  cases taken with
  | ended =>
      exact ⟨memory, covered⟩
  | @delivered update stage =>
      obtain ⟨item, offered⟩ := informed.poised update stage
      have holds : play.call.hasTaken = true := by
        simp [Call.hasTaken, stage]
      rw [holds] at secured
      have shows := covered.shows.receive (.update update) rfl (by simp)
      exact ⟨memory, covered.resume offered secured shows rfl rfl⟩
  | cancelled stage offered =>
      rw [Call.hasTaken_eq_false_iff.mpr stage] at secured
      exact ⟨memory, covered.shows, covered.key_eq, secured.leave, covered.ahead⟩
  | @taken item stage offered goesOn =>
      rw [Call.hasTaken_eq_false_iff.mpr stage] at secured
      have takes := secured.take offered
      refine ⟨memory, ?_⟩
      -- The call holds the item back with its update, or it goes on at once.
      rcases play.call.receive_cases item with ⟨same, holds⟩ | ⟨goesOn, follows⟩
      · refine ⟨covered.shows, ?_, ?_, ?_⟩
        · rw [same]
          exact covered.key_eq
        · rw [same, holds]
          exact takes
        · rw [same]
          exact covered.ahead
      · exact covered.resume offered takes covered.shows goesOn follows
  | @followed action answer scene asked performed =>
      obtain ⟨stage, same, offersNothing, -, -⟩ := CallSession.following_of_follow asked
      obtain ⟨after, goesOn, shows⟩ := Scene.perform_transition covered.shows asked performed
      have silent : Exchange.delivery? ⟨action, answer⟩ = none := by
        simp only [Exchange.delivery?]
      rw [Call.hasTaken_eq_false_iff.mpr stage, ← covered.key_eq] at secured
      have kept := secured.followed goesOn silent
      rw [covered.key_eq] at kept
      obtain ⟨sameKey, ahead⟩ := covered.follow goesOn
      refine ⟨after, shows, sameKey, ?_, ahead⟩
      simpa only [Call.hasTaken, stage] using kept

/-- What happens around a call leaves what is held for it. -/
theorem Covered.drift
    {scene : Scene}
    (covered : Covered initial key play memory)
    (drifts : play.scene.Drifts key scene) :
    ∃ after, Covered initial key { play with scene } after := by
  obtain ⟨after, store, same⟩ := drifts.stored memory covered.shows.store
  refine ⟨after, ⟨?_, store, ?_, ?_⟩, covered.key_eq, ?_, ?_⟩
  · rw [drifts.refusing_eq]
    exact covered.shows.willing
  · rw [← covered.shows.items, Scene.items, Scene.items, Scene.history, drifts.notes_eq]
    rfl
  · rw [drifts.notes_eq]
    exact covered.shows.unended
  · rw [same]
    exact covered.secured
  · rw [same]
    exact covered.ahead

variable {call : Call} {scene : Scene}

/-- A fresh call has nothing to know yet. -/
theorem Informed.start (fresh : CallSession.Fresh call) : Informed { call, scene } := by
  refine ⟨fresh.poised, ?_, by simp [fresh.stage_eq]⟩
  rw [fresh.controller_eq]
  simp [Controller.isClosing]

/-- A fresh call has taken nothing. -/
theorem Covered.start
    (fresh : CallSession.Fresh call)
    (shows : scene.Shows memory []) :
    Covered (memory.load call.controller.key) call.controller.key { call, scene } memory := by
  refine ⟨shows, rfl, ?_, fun resumable => ⟨[], ?_⟩⟩
  · simp only [Call.hasTaken_eq_false_iff.mpr fresh.stage_eq]
    rw [fresh.controller_eq]
    exact ⟨by simp [Stage.stocked], rfl⟩
  · have ahead :=
      WriteAhead.start resumable call.controller.policy call.controller.key call.controller.input
    rw [← fresh.controller_eq] at ahead
    exact ahead

/-- Whatever has happened, a call that ends well knows that its run is complete. -/
theorem informed_run
    (fresh : CallSession.Fresh call)
    (scene : Scene)
    (happenings : List Happening) :
    Informed (run { call, scene } happenings) :=
  run_keeps Informed (fun _ _ => .transition) (fun _ scene informed _ => informed.drift scene)
    (.start fresh) happenings

/-- Whatever has happened, what a call has taken is held. -/
theorem covered_run
    (fresh : CallSession.Fresh call)
    (shows : scene.Shows memory [])
    (happenings : List Happening) :
    ∃ kept,
      Covered (memory.load call.controller.key) call.controller.key
        (run { call, scene } happenings) kept := by
  let initial := memory.load call.controller.key
  let Held (play : Play) : Prop :=
    Informed play ∧ ∃ kept, Covered initial call.controller.key play kept
  have held : Held (run { call, scene } happenings) := by
    refine run_keeps Held ?_ ?_ ⟨.start fresh, memory, .start fresh shows⟩ happenings
    · rintro play next ⟨informed, kept, covered⟩ taken
      exact ⟨informed.transition taken, covered.transition informed taken⟩
    · rintro play scene ⟨informed, kept, covered⟩ drifts
      rw [covered.key_eq] at drifts
      exact ⟨informed.drift scene, covered.drift drifts⟩
  exact held.2

end Play

end AgentWire.Client

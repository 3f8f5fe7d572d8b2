import AgentWire.Client.Controller
import AgentWire.Proofs.Resume.Memory

namespace AgentWire.Client

/-!
# A controller at work

A session is a controller with the store in memory that it writes to, and all
that it has asked for so far.  The store answers by itself.  What a connection
or a timer answers is a move of the surroundings, and every list of moves is one
behaviour of them: connections may be refused, hand over any frames and break
off anywhere, and waits may be cancelled.  A move that does not fit what is
asked for changes nothing.

`Transition` lists what one move can do; invariants of sessions are proved from it.
-/

open Resume (Memory Progress)

/-- Something that a controller asked for, and the answer. -/
structure Exchange where
  action : Action
  answer : Answer
  deriving Repr, DecidableEq

namespace Exchange

/-- The item that was handed over. -/
def delivery? (exchange : Exchange) : Option Delivery :=
  match exchange.action with
  | .deliver item => some item
  | _ => none

end Exchange

/-- What the surroundings of a controller do next. -/
inductive Move where
  /-- A connection or a timer answers. -/
  | answer (given : Answer)
  /-- Somebody writes under another key, or clears it. -/
  | elsewhere (key : String) (progress : Option Progress)
  deriving Repr, DecidableEq

/-- A controller, the store that it writes to, and what it asked for so far. -/
structure Session where
  controller : Controller
  memory : Memory
  history : List Exchange := []
  deriving Repr, DecidableEq

namespace Session

/-- A stream under a key before its first step. -/
def start
    (policy : RetryPolicy)
    (key : String)
    (input : RunInput)
    (memory : Memory) :
    Session where
  controller := { policy, key, input }
  memory := memory

/-- The store after somebody wrote under a key. -/
def overwrite (memory : Memory) (key : String) : Option Progress → Memory
  | some progress => memory.save key progress
  | none => memory.clear key

/--
The answer to what the controller asks for, and the store after it.  The
consumer is served as soon as it asks for more.  There is no answer when the
stream has ended, or when the one that is given does not fit.
-/
def reply? (session : Session) (given : Answer) : Option (Answer × Memory) :=
  let memory := session.memory
  let key := session.controller.key
  match session.controller.action with
  | .load => some (.loaded (memory.load key), memory)
  | .save progress => some (.done, memory.save key progress)
  | .append event lastNumber => some (.done, memory.append key event lastNumber)
  | .clear => some (.done, memory.clear key)
  | .deliver _ => some (.done, memory)
  | .connect _ | .wait _ =>
      match given with
      | .done | .failed _ => some (given, memory)
      | _ => none
  | .read =>
      match given with
      | .frame _ | .closed | .failed _ => some (given, memory)
      | _ => none
  | .finish | .fail _ => none

/-- One move. -/
def step (session : Session) : Move → Session
  | .answer given =>
      match session.reply? given with
      | some (answer, memory) =>
          { controller := session.controller.advance answer
            memory
            history := session.history ++ [⟨session.controller.action, answer⟩] }
      | none => session
  | .elsewhere key progress =>
      if key = session.controller.key then
        session
      else
        { session with memory := overwrite session.memory key progress }

/-- Any number of moves, one after the other. -/
def run (session : Session) (moves : List Move) : Session :=
  moves.foldl step session

/-- The items that the consumer has received and gone on from. -/
def deliveries (session : Session) : List Delivery :=
  session.history.filterMap Exchange.delivery?

/-- The item that the consumer receives now. -/
def offered? (session : Session) : Option Delivery :=
  match session.controller.action with
  | .deliver item => some item
  | _ => none

/-- All items that the consumer has received, the present one included. -/
def yielded (session : Session) : List Delivery :=
  session.deliveries ++ session.offered?.toList

/-- Whether events that were stored before are being handed over. -/
def isReplaying (session : Session) : Bool :=
  match session.controller.stage with
  | .replaying .. => true
  | _ => false

/-- Whether the stream has ended without an error. -/
def hasEnded (session : Session) : Bool :=
  session.controller.action == .finish

/-- What one item does to the events since the last restart. -/
def extendSegment (segment : List Event) : Delivery → List Event
  | .event event => segment ++ [event]
  | .restarted _ => []

/-- The events that were delivered since the last restart. -/
def segment (session : Session) : List Event :=
  session.deliveries.foldl extendSegment []

/-- What is stored under the key of the stream. -/
def stored (session : Session) : Option Progress :=
  session.memory.load session.controller.key

/-- The stores that streams under a key leave behind, wherever each is given up. -/
inductive Left (key : String) : Memory → Prop where
  | fresh {memory : Memory} :
      memory.load key = none →
      Left key memory
  | run {memory : Memory}
      (policy : RetryPolicy)
      (input : RunInput)
      (moves : List Move) :
      Left key memory →
      Left key ((start policy key input memory).run moves).memory

end Session

/--
What one answer does to a controller and its store: the exchange, the controller
and the store after it.
-/
inductive Transition (controller : Controller) (memory : Memory) :
    Exchange → Controller → Memory → Prop where
  | loaded :
      controller.stage = .loading →
      Transition controller memory
        ⟨.load, .loaded (memory.load controller.key)⟩
        (controller.begin (memory.load controller.key)) memory
  | replayed {event : Event} {rest : List Event} :
      controller.stage = .replaying event rest →
      Transition controller memory
        ⟨.deliver (.event event), .done⟩ (controller.replay rest) memory
  | opened :
      controller.stage = .connecting →
      Transition controller memory
        ⟨.connect controller.request, .done⟩ (controller.goTo .reading) memory
  | unknownRun {body responseId : String} {lastNumber : UInt64} :
      controller.stage = .connecting →
      controller.request = .resume responseId lastNumber →
      Transition controller memory
        ⟨.connect controller.request, .failed (.transport 404 body)⟩
        (controller.goTo .forgetting) memory
  | refused {error : ClientError} :
      controller.stage = .connecting →
      controller.refused error = controller.fallBack error →
      Transition controller memory
        ⟨.connect controller.request, .failed error⟩
        (controller.fallBack error) memory
  | forgot :
      controller.stage = .forgetting →
      Transition controller memory ⟨.clear, .done⟩
        (if controller.delivered then controller.goTo .forgotten else controller.forget)
        (memory.clear controller.key)
  | gaveUp :
      controller.stage = .forgotten →
      Transition controller memory
        ⟨.deliver (.restarted controller.progress.lastNumber), .done⟩
        controller.forget memory
  | received {event : Event} :
      controller.stage = .reading →
      Transition controller memory
        ⟨.read, .frame (.event event)⟩ (controller.receive event) memory
  | marked :
      controller.stage = .reading →
      Transition controller memory ⟨.read, .frame .done⟩ (controller.goTo .closing) memory
  | ended :
      controller.stage = .reading →
      Transition controller memory
        ⟨.read, .closed⟩ (controller.interrupt Controller.endedEarly) memory
  | broken {error : ClientError} :
      controller.stage = .reading →
      Transition controller memory ⟨.read, .failed error⟩ (controller.fallBack error) memory
  | cleared {event : Event} :
      controller.stage = .restarting event →
      Transition controller memory ⟨.clear, .done⟩
        (Controller.goTo { controller with progress := {} }
          (.restarted controller.progress.lastNumber event))
        (memory.clear controller.key)
  | restarted {lastNumber : UInt64} {event : Event} :
      controller.stage = .restarted lastNumber event →
      Transition controller memory
        ⟨.deliver (.restarted lastNumber), .done⟩ (controller.accept event) memory
  | saved {event : Event} :
      controller.stage = .saving event →
      Transition controller memory ⟨.save controller.progress, .done⟩
        (controller.goTo (.delivering event))
        (memory.save controller.key controller.progress)
  | appended {event : Event} :
      controller.stage = .appending event →
      Transition controller memory ⟨.append event controller.progress.lastNumber, .done⟩
        (controller.goTo (.delivering event))
        (memory.append controller.key event controller.progress.lastNumber)
  | settled {event : Event} :
      controller.stage = .settling event →
      Transition controller memory ⟨.clear, .done⟩
        (controller.goTo (.delivering event)) (memory.clear controller.key)
  | delivered {event : Event} :
      controller.stage = .delivering event →
      Transition controller memory ⟨.deliver (.event event), .done⟩
        (controller.goTo (if event.isTerminal then .closing else .reading)) memory
  | closed :
      controller.stage = .closing →
      Transition controller memory ⟨.clear, .done⟩
        (controller.goTo .finished) (memory.clear controller.key)
  | waited {delay : Delay} :
      controller.stage = .waiting delay →
      Transition controller memory
        ⟨.wait delay, .done⟩ (controller.goTo .connecting) memory
  | cancelled {delay : Delay} {error : ClientError} :
      controller.stage = .waiting delay →
      Transition controller memory
        ⟨.wait delay, .failed error⟩ (controller.goTo (.failed error)) memory

namespace Controller

/-- A refused connection forgets a run that is unknown, and else falls back. -/
theorem refused_cases (controller : Controller) (error : ClientError) :
    controller.refused error = controller.fallBack error ∨
      ∃ body responseId lastNumber,
        error = .transport 404 body ∧
          controller.request = .resume responseId lastNumber ∧
          controller.refused error = controller.goTo .forgetting := by
  unfold refused
  split
  · rename_i body responseId lastNumber requested
    exact .inr ⟨body, responseId, lastNumber, rfl, requested, rfl⟩
  · exact .inl rfl

/-- An event that is accepted is stored next, or what is stored is cleared for it. -/
theorem accept_stage (controller : Controller) (event : Event) :
    (controller.accept event).stage = .saving event ∨
      (controller.accept event).stage = .appending event ∨
      (controller.accept event).stage = .settling event := by
  simp only [accept]
  split
  · exact .inr (.inr rfl)
  · split
    · exact .inr (.inl rfl)
    · exact .inl rfl

end Controller

namespace Session

/-- A reply that fits what the controller asks for is a transition of controller and store. -/
theorem transition_of_reply?
    {session : Session}
    {given answer : Answer}
    {memory : Memory}
    (replied : session.reply? given = some (answer, memory)) :
    Transition session.controller session.memory
      ⟨session.controller.action, answer⟩
      (session.controller.advance answer) memory := by
  obtain ⟨controller, store, history⟩ := session
  -- Connecting, reading and waiting have several replies; every other stage has one.
  cases stage : controller.stage <;>
    simp only [reply?, Controller.action, stage, Option.some.injEq,
      Prod.mk.injEq, reduceCtorEq] at replied
  case loading =>
    obtain ⟨rfl, rfl⟩ := replied
    simpa [Controller.action, Controller.advance, stage] using Transition.loaded stage
  case replaying event rest =>
    obtain ⟨rfl, rfl⟩ := replied
    simpa [Controller.action, Controller.advance, Controller.proceed, stage] using
      Transition.replayed stage
  case connecting =>
    cases given <;> simp only [Option.some.injEq, Prod.mk.injEq, reduceCtorEq] at replied
    case done =>
      obtain ⟨rfl, rfl⟩ := replied
      simpa [Controller.action, Controller.advance, stage] using Transition.opened stage
    case failed error =>
      obtain ⟨rfl, rfl⟩ := replied
      -- Only a request to resume can be refused because the run is unknown.
      rcases controller.refused_cases error with
        fallsBack | ⟨body, responseId, lastNumber, rfl, requested, forgets⟩
      · simpa [Controller.action, Controller.advance, stage, fallsBack] using
          Transition.refused stage fallsBack
      · simpa [Controller.action, Controller.advance, stage, forgets] using
          Transition.unknownRun stage requested
  case forgetting =>
    obtain ⟨rfl, rfl⟩ := replied
    simpa [Controller.action, Controller.advance, Controller.proceed, stage] using
      Transition.forgot stage
  case forgotten =>
    obtain ⟨rfl, rfl⟩ := replied
    simpa [Controller.action, Controller.advance, Controller.proceed, stage] using
      Transition.gaveUp stage
  case reading =>
    cases given <;> simp only [Option.some.injEq, Prod.mk.injEq, reduceCtorEq] at replied
    case frame frame =>
      obtain ⟨rfl, rfl⟩ := replied
      cases frame with
      | event event =>
          simpa [Controller.action, Controller.advance, stage] using
            Transition.received stage
      | done =>
          simpa [Controller.action, Controller.advance, stage] using
            Transition.marked stage
    case closed =>
      obtain ⟨rfl, rfl⟩ := replied
      simpa [Controller.action, Controller.advance, stage] using Transition.ended stage
    case failed error =>
      obtain ⟨rfl, rfl⟩ := replied
      simpa [Controller.action, Controller.advance, stage] using Transition.broken stage
  case restarting event =>
    obtain ⟨rfl, rfl⟩ := replied
    simpa [Controller.action, Controller.advance, Controller.proceed, stage] using
      Transition.cleared stage
  case restarted lastNumber event =>
    obtain ⟨rfl, rfl⟩ := replied
    simpa [Controller.action, Controller.advance, Controller.proceed, stage] using
      Transition.restarted stage
  case saving event =>
    obtain ⟨rfl, rfl⟩ := replied
    simpa [Controller.action, Controller.advance, Controller.proceed, stage] using
      Transition.saved stage
  case appending event =>
    obtain ⟨rfl, rfl⟩ := replied
    simpa [Controller.action, Controller.advance, Controller.proceed, stage] using
      Transition.appended stage
  case settling event =>
    obtain ⟨rfl, rfl⟩ := replied
    simpa [Controller.action, Controller.advance, Controller.proceed, stage] using
      Transition.settled stage
  case delivering event =>
    obtain ⟨rfl, rfl⟩ := replied
    simpa [Controller.action, Controller.advance, Controller.proceed, stage] using
      Transition.delivered stage
  case closing =>
    obtain ⟨rfl, rfl⟩ := replied
    simpa [Controller.action, Controller.advance, Controller.proceed, stage] using
      Transition.closed stage
  case waiting delay =>
    cases given <;> simp only [Option.some.injEq, Prod.mk.injEq, reduceCtorEq] at replied
    case done =>
      obtain ⟨rfl, rfl⟩ := replied
      simpa [Controller.action, Controller.advance, Controller.proceed, stage] using
        Transition.waited stage
    case failed error =>
      obtain ⟨rfl, rfl⟩ := replied
      simpa [Controller.action, Controller.advance, Controller.proceed, stage] using
        Transition.cancelled stage

/-- A write under another key leaves what is stored as it was. -/
theorem load_elsewhere (session : Session) (key : String) (progress : Option Progress) :
    (session.step (.elsewhere key progress)).memory.load session.controller.key =
      session.stored := by
  simp only [step]
  split
  · rfl
  · next different =>
    cases progress with
    | none =>
        exact Memory.load_clear_of_ne (Ne.symm different) _
    | some progress =>
        exact Memory.load_save_of_ne (Ne.symm different) _ progress

/-- A move is a transition, or leaves all but the store under other keys as it was. -/
theorem step_cases (session : Session) (move : Move) :
    (∃ exchange controller memory,
      Transition session.controller session.memory exchange controller memory ∧
        session.step move =
          { controller, memory, history := session.history ++ [exchange] }) ∨
      ∃ memory,
        Memory.load memory session.controller.key = session.stored ∧
          session.step move = { session with memory } := by
  cases move with
  | answer given =>
      simp only [step]
      cases replied : session.reply? given with
      | none =>
          exact .inr ⟨session.memory, rfl, rfl⟩
      | some reply =>
          exact .inl ⟨_, _, _, transition_of_reply? replied, rfl⟩
  | elsewhere key progress =>
      refine .inr ⟨_, session.load_elsewhere key progress, ?_⟩
      simp only [step]
      split <;> rfl

/-- What every transition and every write under another key keeps, a run keeps. -/
theorem run_keeps
    (Invariant : Session → Prop)
    (transition :
      ∀ session exchange controller memory,
        Invariant session →
        Transition session.controller session.memory exchange controller memory →
        Invariant { controller, memory, history := session.history ++ [exchange] })
    (elsewhere :
      ∀ session memory,
        Invariant session →
        Memory.load memory session.controller.key = session.stored →
        Invariant { session with memory })
    {session : Session}
    (initial : Invariant session)
    (moves : List Move) :
    Invariant (session.run moves) := by
  induction moves generalizing session with
  | nil =>
      exact initial
  | cons move rest inductionHypothesis =>
      apply inductionHypothesis
      rcases session.step_cases move with
        ⟨exchange, controller, memory, taken, shape⟩ | ⟨memory, same, shape⟩
      · rw [shape]
        exact transition session exchange controller memory initial taken
      · rw [shape]
        exact elsewhere session memory initial same

/-- The item of an exchange is received behind all others. -/
theorem deliveries_concat
    (controller : Controller)
    (memory : Memory)
    (history : List Exchange)
    (exchange : Exchange) :
    deliveries { controller, memory, history := history ++ [exchange] } =
      history.filterMap Exchange.delivery? ++ exchange.delivery?.toList := by
  cases item : exchange.delivery? <;>
    simp [deliveries, item]

end Session

namespace Transition

/-- The key of a stream never changes. -/
theorem key_eq
    {controller next : Controller}
    {memory after : Memory}
    {exchange : Exchange}
    (taken : Transition controller memory exchange next after) :
    next.key = controller.key := by
  cases taken <;>
    simp only [Controller.goTo, Controller.begin, Controller.replay,
      Controller.forget, Controller.accept, Controller.receive,
      Controller.fallBack, Controller.interrupt]
  all_goals repeat' split
  all_goals rfl

end Transition

end AgentWire.Client

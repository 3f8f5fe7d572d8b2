import AgentWire.Proofs.Client.Session
import AgentWire.Proofs.Resume.Progress
import Mathlib.Logic.Function.Basic

namespace AgentWire.Client

/-!
# Streams that share a store

Any number of streams write to one store, and some of them under one key.  An event
is stored by adding it to whatever stands under the key, so what stands there is the
progress of the stream that wrote it only as long as no other stream has written since
that stream last read, replaced or cleared it.  `InStep` is the invariant of a stream
that is left alone in this way.
-/

open Resume (Memory Progress)

namespace Action

/-- Whether an action changes what is stored. -/
def writes : Action → Bool
  | .save _ | .append _ _ | .clear => true
  | _ => false

/-- Whether store and progress agree after an action, whatever was stored before. -/
def settles : Action → Bool
  | .load | .save _ | .clear => true
  | _ => false

end Action

/-- Streams, the store that all of them use, and what each asked for so far. -/
structure Sharing (Stream : Type) where
  controllers : Stream → Controller
  memory : Memory
  history : List (Stream × Exchange) := []

namespace Sharing

variable {Stream : Type}

/-- Streams before their first steps, each under a key. -/
def start
    (policy : Stream → RetryPolicy)
    (key : Stream → String)
    (input : Stream → RunInput)
    (memory : Memory) :
    Sharing Stream where
  controllers stream := { policy := policy stream, key := key stream, input := input stream }
  memory := memory

/-- One stream takes a step; the store answers by itself. -/
def step
    [DecidableEq Stream]
    (sharing : Sharing Stream)
    (move : Stream × Answer) :
    Sharing Stream :=
  let (stream, given) := move
  let controller := sharing.controllers stream
  match Session.reply? { controller, memory := sharing.memory } given with
  | some (answer, memory) =>
      { controllers := Function.update sharing.controllers stream (controller.advance answer)
        memory
        history := sharing.history ++ [(stream, ⟨controller.action, answer⟩)] }
  | none => sharing

/-- Any interleaving of the steps of the streams. -/
def run
    [DecidableEq Stream]
    (sharing : Sharing Stream)
    (moves : List (Stream × Answer)) :
    Sharing Stream :=
  moves.foldl step sharing

/--
A stream has read, replaced or cleared what is stored under its key, and since then
no other stream has written there.
-/
def Undisturbed
    (key : Stream → String)
    (stream : Stream)
    (history : List (Stream × Exchange)) :
    Prop :=
  ∃ before exchange after,
    history = before ++ (stream, exchange) :: after ∧
      exchange.action.settles = true ∧
      ∀ entry ∈ after, entry.1 ≠ stream → key entry.1 = key stream →
        entry.2.action.writes = false

/-- A stream is undisturbed since its own exchange just now, or it was before and nobody wrote. -/
theorem Undisturbed.of_concat
    {key : Stream → String}
    {stream other : Stream}
    {history : List (Stream × Exchange)}
    {exchange : Exchange}
    (undisturbed : Undisturbed key stream (history ++ [(other, exchange)])) :
    other = stream ∧ exchange.action.settles = true ∨
      Undisturbed key stream history ∧
        (other ≠ stream → key other = key stream → exchange.action.writes = false) := by
  obtain ⟨before, own, after, split, settles, quiet⟩ := undisturbed
  rcases List.eq_nil_or_concat after with rfl | ⟨earlier, last, rfl⟩
  · obtain ⟨-, same⟩ := List.append_inj' split rfl
    simp only [List.cons.injEq, Prod.mk.injEq, and_true] at same
    obtain ⟨rfl, rfl⟩ := same
    exact .inl ⟨rfl, settles⟩
  · rw [List.concat_eq_append, ← List.cons_append, ← List.append_assoc] at split
    obtain ⟨rfl, same⟩ := List.append_inj' split rfl
    simp only [List.cons.injEq, and_true] at same
    subst same
    rw [List.concat_eq_append, List.forall_mem_append, List.forall_mem_singleton] at quiet
    exact .inr ⟨⟨before, own, earlier, rfl, settles, quiet.1⟩, quiet.2⟩

end Sharing

/-- How the store stands to a stream that is left alone, at each stage. -/
def InStep (progress : Progress) (stored : Option Progress) : Stage → Prop
  | .replaying _ _ | .connecting | .forgetting | .reading | .restarting _ | .waiting _ =>
      stored.getD {} = progress
  | .forgotten => stored = none
  | .restarted _ _ => stored = none ∧ progress = {}
  | .saving event | .appending event => (stored.getD {}).record event = progress
  | .delivering event => event.isTerminal = false → stored = some progress
  | .loading | .settling _ | .closing | .finished | .failed _ => True

/-- What is stored is cleared only before an event that ends the run. -/
def Ending (controller : Controller) : Prop :=
  ∀ event, controller.stage = .settling event → event.isTerminal = true

section Transitions

variable
  {controller next : Controller}
  {memory after : Memory}
  {exchange : Exchange}
  {stored : Option Progress}
  {event : Event}

/-- An event that is accepted is settled only if it ends its run. -/
theorem ending_accept : Ending (controller.accept event) := by
  intro last stage
  simp only [Controller.accept] at stage
  split at stage
  · next terminal =>
    cases stage
    exact terminal
  · split at stage <;> cases stage

/-- A replay stays in step with what is stored. -/
theorem inStep_replay
    {events : List Event}
    (inStep : stored.getD {} = controller.progress) :
    InStep (controller.replay events).progress stored (controller.replay events).stage := by
  cases events <;> exact inStep

/-- An event that is accepted is one ahead of what is stored. -/
theorem inStep_accept (inStep : stored.getD {} = controller.progress) :
    InStep (controller.accept event).progress stored (controller.accept event).stage := by
  have noted : (stored.getD {}).record event = (controller.accept event).progress := by
    rw [inStep]
    rfl
  rcases controller.accept_stage event with stage | stage | stage
  · rwa [stage]
  · rwa [stage]
  · rw [stage]
    trivial

/-- An interruption leaves a stream in step. -/
theorem inStep_interrupt
    (inStep : stored.getD {} = controller.progress)
    (error : ClientError) :
    InStep (controller.interrupt error).progress stored (controller.interrupt error).stage := by
  simp only [Controller.interrupt]
  split
  · exact inStep
  · trivial

/-- So does an error. -/
theorem inStep_fallBack
    (inStep : stored.getD {} = controller.progress)
    (error : ClientError) :
    InStep (controller.fallBack error).progress stored (controller.fallBack error).stage := by
  simp only [Controller.fallBack]
  split
  · exact inStep_interrupt inStep error
  · trivial

namespace Transition

/-- Only what an action writes changes the store, and only under the key of its stream. -/
theorem load_eq
    (taken : Transition controller memory exchange next after)
    {key : String}
    (aside : key = controller.key → exchange.action.writes = false) :
    after.load key = memory.load key := by
  have other (writes : exchange.action.writes = true) : key ≠ controller.key := by
    intro same
    rw [aside same] at writes
    cases writes
  cases taken with
  | forgot | cleared | settled | closed => exact Memory.load_clear_of_ne (other rfl) memory
  | saved => exact Memory.load_save_of_ne (other rfl) memory _
  | appended => exact Memory.load_save_of_ne (other rfl) memory _
  | _ => rfl

/-- A transition settles only events that end their run. -/
theorem ending
    (before : Ending controller)
    (taken : Transition controller memory exchange next after) :
    Ending next := by
  cases taken with
  | restarted => exact ending_accept
  | received stage =>
      simp only [Controller.receive]
      split
      · exact before
      · intro last stage
        cases stage
      · exact ending_accept
  | loaded | replayed | refused | ended | broken | forgot | delivered =>
      -- Each leads to one of two stages, and neither is the one before the last event.
      intro last stage
      simp only [Controller.begin, Controller.replay, Controller.goTo, Controller.fallBack,
        Controller.interrupt, Controller.forget] at stage
      repeat' split at stage
      all_goals cases stage
  | _ =>
      intro last stage
      cases stage

/-- A stream that was in step remains so, and becomes so by what settles the store. -/
theorem inStep
    (ending : Ending controller)
    (before :
      exchange.action.settles = true ∨
        InStep controller.progress (memory.load controller.key) controller.stage)
    (taken : Transition controller memory exchange next after) :
    InStep next.progress (after.load controller.key) next.stage := by
  cases taken with
  | loaded => exact inStep_replay rfl
  | replayed stage =>
      -- No exchange of this stage settles the store, so the stream was in step already.
      have calm := before.resolve_left Bool.false_ne_true
      rw [stage] at calm
      exact inStep_replay calm
  | opened stage | unknownRun stage | waited stage =>
      have calm := before.resolve_left Bool.false_ne_true
      rwa [stage] at calm
  | refused stage =>
      have calm := before.resolve_left Bool.false_ne_true
      rw [stage] at calm
      exact inStep_fallBack calm _
  | forgot =>
      rw [Memory.load_clear]
      split <;> rfl
  | gaveUp stage =>
      have calm := before.resolve_left Bool.false_ne_true
      rw [stage] at calm
      rw [(calm : memory.load controller.key = none)]
      rfl
  | received stage =>
      have calm := before.resolve_left Bool.false_ne_true
      rw [stage] at calm
      simp only [Controller.receive]
      split
      · rwa [stage]
      · exact calm
      · exact inStep_accept calm
  | ended stage =>
      have calm := before.resolve_left Bool.false_ne_true
      rw [stage] at calm
      exact inStep_interrupt calm _
  | broken stage =>
      have calm := before.resolve_left Bool.false_ne_true
      rw [stage] at calm
      exact inStep_fallBack calm _
  | cleared =>
      rw [Memory.load_clear]
      exact ⟨rfl, rfl⟩
  | restarted stage =>
      have calm := before.resolve_left Bool.false_ne_true
      rw [stage] at calm
      obtain ⟨nothing, fresh⟩ := calm
      exact inStep_accept (by rw [nothing, fresh]; rfl)
  | saved =>
      rw [Memory.load_save]
      exact fun _ => rfl
  | @appended event stage =>
      have calm := before.resolve_left Bool.false_ne_true
      rw [stage] at calm
      have noted : controller.progress = ((memory.load controller.key).getD {}).record event :=
        calm.symm
      intro live
      show _ = some controller.progress
      rw [Memory.load_append, noted, Progress.recordAt_record_lastNumber]
  | settled stage =>
      intro live
      rw [ending _ stage] at live
      cases live
  | @delivered event stage =>
      have calm := before.resolve_left Bool.false_ne_true
      rw [stage] at calm
      cases terminal : event.isTerminal with
      | true => trivial
      | false =>
          simp [Controller.goTo, InStep, calm terminal]
  | marked | closed | cancelled => trivial

end Transition

end Transitions

namespace Sharing

variable {Stream : Type}

/-- The invariant of streams that share a store. -/
structure Orderly (key : Stream → String) (sharing : Sharing Stream) : Prop where
  keys : ∀ stream, (sharing.controllers stream).key = key stream
  ending : ∀ stream, Ending (sharing.controllers stream)
  inStep :
    ∀ stream, Undisturbed key stream sharing.history →
      InStep (sharing.controllers stream).progress (sharing.memory.load (key stream))
        (sharing.controllers stream).stage

/-- Before the first step nothing was read, so nothing is promised. -/
theorem orderly_start
    (policy : Stream → RetryPolicy)
    (key : Stream → String)
    (input : Stream → RunInput)
    (memory : Memory) :
    Orderly key (start policy key input memory) where
  keys _ := rfl
  ending := by
    intro stream last stage
    cases stage
  inStep _ _ := trivial

section Moved

variable
  {key : Stream → String}
  {sharing : Sharing Stream}
  {stream mover : Stream}
  {exchange : Exchange}
  {next : Controller}
  {memory : Memory}

/-- The stream that has moved. -/
theorem Orderly.own
    (orderly : Orderly key sharing)
    (taken : Transition (sharing.controllers stream) sharing.memory exchange next memory)
    (undisturbed : Undisturbed key stream (sharing.history ++ [(stream, exchange)])) :
    InStep next.progress (memory.load (key stream)) next.stage := by
  rw [← orderly.keys stream]
  refine taken.inStep (orderly.ending stream) ?_
  rcases undisturbed.of_concat with ⟨-, settles⟩ | ⟨earlier, -⟩
  · exact .inl settles
  · rw [orderly.keys stream]
    exact .inr (orderly.inStep stream earlier)

/-- A stream while another one moves. -/
theorem Orderly.other
    (orderly : Orderly key sharing)
    (different : stream ≠ mover)
    (taken : Transition (sharing.controllers mover) sharing.memory exchange next memory)
    (undisturbed : Undisturbed key stream (sharing.history ++ [(mover, exchange)])) :
    InStep (sharing.controllers stream).progress (memory.load (key stream))
      (sharing.controllers stream).stage := by
  obtain ⟨earlier, quiet⟩ := undisturbed.of_concat.resolve_left fun own => different own.1.symm
  have left : memory.load (key stream) = sharing.memory.load (key stream) :=
    taken.load_eq fun shared => quiet different.symm (by rw [shared, orderly.keys])
  rw [left]
  exact orderly.inStep stream earlier

variable [DecidableEq Stream]

/-- A step is a transition of one stream over the common store, or changes nothing. -/
theorem step_cases
    (sharing : Sharing Stream)
    (move : Stream × Answer) :
    (∃ exchange next memory,
      Transition (sharing.controllers move.1) sharing.memory exchange next memory ∧
        sharing.step move =
          { controllers := Function.update sharing.controllers move.1 next
            memory
            history := sharing.history ++ [(move.1, exchange)] }) ∨
      sharing.step move = sharing := by
  obtain ⟨stream, given⟩ := move
  simp only [step]
  cases replied : Session.reply? ⟨sharing.controllers stream, sharing.memory, []⟩ given with
  | none => exact .inr rfl
  | some reply => exact .inl ⟨_, _, _, Session.transition_of_reply? replied, rfl⟩

/-- A step of one stream keeps all of them in order. -/
theorem Orderly.moved
    (orderly : Orderly key sharing)
    (taken : Transition (sharing.controllers mover) sharing.memory exchange next memory) :
    Orderly key
      { controllers := Function.update sharing.controllers mover next
        memory
        history := sharing.history ++ [(mover, exchange)] } where
  keys :=
    (Function.forall_update_iff sharing.controllers fun stream controller =>
        controller.key = key stream).mpr
      ⟨taken.key_eq.trans (orderly.keys mover), fun stream _ => orderly.keys stream⟩
  ending :=
    (Function.forall_update_iff sharing.controllers fun _ controller => Ending controller).mpr
      ⟨taken.ending (orderly.ending mover), fun stream _ => orderly.ending stream⟩
  inStep :=
    (Function.forall_update_iff sharing.controllers fun stream controller =>
        Undisturbed key stream (sharing.history ++ [(mover, exchange)]) →
          InStep controller.progress (memory.load (key stream)) controller.stage).mpr
      ⟨orderly.own taken, fun _ different => orderly.other different taken⟩

/-- So does any answer, since one that does not fit changes nothing. -/
theorem Orderly.step
    (orderly : Orderly key sharing)
    (move : Stream × Answer) :
    Orderly key (sharing.step move) := by
  rcases sharing.step_cases move with ⟨exchange, next, memory, taken, shape⟩ | same
  · rw [shape]
    exact orderly.moved taken
  · rw [same]
    exact orderly

/-- Any interleaving keeps the streams in order. -/
theorem Orderly.run
    (orderly : Orderly key sharing)
    (moves : List (Stream × Answer)) :
    Orderly key (sharing.run moves) := by
  induction moves generalizing sharing with
  | nil => exact orderly
  | cons move rest inductionHypothesis => exact inductionHypothesis (orderly.step move)

end Moved

/--
However the steps of the streams interleave, an event of a run that goes on is
delivered with all progress of its stream in the store, provided that no other stream
has written under the same key since that stream last read, replaced or cleared what
stands there.
-/
theorem stored_of_undisturbed
    [DecidableEq Stream]
    (policy : Stream → RetryPolicy)
    (key : Stream → String)
    (input : Stream → RunInput)
    (memory : Memory)
    (moves : List (Stream × Answer))
    {stream : Stream}
    {event : Event}
    (delivering :
      (((start policy key input memory).run moves).controllers stream).stage =
        .delivering event)
    (live : event.isTerminal = false)
    (undisturbed :
      Undisturbed key stream ((start policy key input memory).run moves).history) :
    ((start policy key input memory).run moves).memory.load (key stream) =
      some (((start policy key input memory).run moves).controllers stream).progress := by
  have inStep :=
    ((orderly_start policy key input memory).run moves).inStep stream undisturbed
  rw [delivering] at inStep
  exact inStep live

end Sharing

namespace TwoCalls

/-- Two calls on one conversation; each creates a run of its own. -/
inductive Call where
  | first
  | second
  deriving Repr, DecidableEq

def Call.runId : Call → String
  | .first => "run-a"
  | .second => "run-b"

def opened (call : Call) : Event :=
  (EventBody.runStarted "thread" call.runId).toEvent.numbered 1

def spoken : Event :=
  (EventBody.textMessageStart "message" "assistant").toEvent.numbered 2

def begun : Sharing Call :=
  .start (fun _ => {}) (fun _ => "conversation")
    (fun call => { threadId := "thread", runId := call.runId, messages := [] }) []

/-- A call reads the store and connects. -/
def connects (call : Call) : List (Call × Answer) :=
  [(call, .done), (call, .done)]

/-- A call stores its first event and hands it over. -/
def opens (call : Call) : List (Call × Answer) :=
  [(call, .frame (.event (opened call))), (call, .done), (call, .done)]

/-- A call stores its next event. -/
def goesOn (call : Call) : List (Call × Answer) :=
  [(call, .frame (.event spoken)), (call, .done)]

/-- The second call reads what the first one has stored, and writes nothing yet. -/
def watched : Sharing Call :=
  begun.run (connects .first ++ opens .first ++ connects .second ++ goesOn .first)

/-- Both calls store their first events before the first call goes on. -/
def crossed : Sharing Call :=
  begun.run
    (connects .first ++ connects .second ++ opens .first ++ opens .second ++ goesOn .first)

end TwoCalls

namespace Sharing

open TwoCalls

/-- A stream that nobody disturbs, beside another one that waits under the same key. -/
theorem stored_of_undisturbed_watched :
    (watched.controllers .first).stage = .delivering spoken ∧
      watched.memory.load "conversation" = some (Progress.ofEvents [opened .first, spoken]) := by
  have delivering : (watched.controllers .first).stage = .delivering spoken := by decide
  have progress :
      (watched.controllers .first).progress = Progress.ofEvents [opened .first, spoken] := by
    decide
  have undisturbed : Undisturbed (fun _ => "conversation") .first watched.history := by
    refine ⟨watched.history.take 3, ⟨.save (Progress.ofEvents [opened .first]), .done⟩,
      watched.history.drop 4, ?_, rfl, ?_⟩
    · decide
    · decide
  rw [← progress]
  exact ⟨delivering, stored_of_undisturbed _ _ _ _ _ delivering rfl undisturbed⟩

/-- An event of one run is added to the progress of another. -/
theorem runs_mixed_crossed :
    (crossed.controllers .first).stage = .delivering spoken ∧
      (crossed.controllers .first).progress = Progress.ofEvents [opened .first, spoken] ∧
      crossed.memory.load "conversation" = some (Progress.ofEvents [opened .second, spoken]) := by
  decide

end Sharing

end AgentWire.Client

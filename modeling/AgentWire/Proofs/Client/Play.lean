import AgentWire.Proofs.Client.CallRehearsal

namespace AgentWire.Client

/-!
# A call at play

A play is a call with the surroundings of its rehearsal, one step after the other.  Between
two steps anything may happen around the call: the token is cancelled, the connections turn
out to do something else, somebody writes under another key.  What the connections do is
therefore open at every step, and the token may be cancelled at every step.

`PlayTransition` lists what one step can do.  The ledger of a play notes what the call has
taken of the run that it follows; what the server says about the run is read off the answers
to the controller.
-/

open Chat (ChatMessage Update)
open Resume (Memory Progress Store)

/-- Something that happens to a call. -/
inductive Happening where
  /-- The call takes a step. -/
  | step
  /-- The token is cancelled. -/
  | cancel
  /-- The next connections are these, and the open one goes on so. -/
  | serve (script : List Connection) (current : List Cue)
  /-- Somebody writes under another key, or clears it. -/
  | elsewhere (key : String) (progress : Option Progress)

/-- Whether the call takes a step. -/
def Happening.isStep : Happening → Bool
  | .step => true
  | _ => false

namespace Call

/-- A call that has handed over everything, or has failed. -/
def HasEnded (call : Call) : Prop :=
  call.action = .finish ∨ ∃ error, call.action = .fail error

end Call

namespace Scene

/-- The surroundings after somebody wrote under a key. -/
def overwrite (scene : Scene) (key : String) (progress : Option Progress) : Scene :=
  match progress with
  | some progress => { scene with store := (scene.store.save key progress).2 }
  | none => { scene with store := (scene.store.clear key).2 }

end Scene

/-! ### What a call has had of its run -/

/-- What a call has had of the run that it follows. -/
structure Ledger where
  /-- The events that the call has taken, unless the run is over or was given up. -/
  running : List Event := []
  /-- Whether the call knows that the run is complete. -/
  complete : Bool := false
  deriving Repr, DecidableEq

namespace Ledger

/-- The call takes an item of its stream. -/
def take (ledger : Ledger) : Delivery → Ledger
  | .event event =>
      { running := if event.isTerminal then [] else ledger.running ++ [event]
        complete := event.isTerminal }
  | .restarted _ => {}

/--
What an answer to the controller says of the run: a mark or an event that is no duplicate
may end it, and an event may start it anew or the server may not know it any more.
-/
def hear (ledger : Ledger) (controller : Controller) (answer : Answer) : Ledger :=
  match controller.action, answer with
  | .read, .frame .done => { complete := true }
  | .read, .frame (.event event) =>
      match admissionOf controller.progress event with
      | .duplicate => ledger
      | .restart => {}
      | .forward => if event.isTerminal then { ledger with running := [] } else ledger
  | .connect (.resume _ _), .failed (.transport 404 _) => {}
  | _, _ => ledger

end Ledger

/-- A call, its surroundings, and what it has had of its run. -/
structure Play where
  call : Call
  scene : Scene
  ledger : Ledger := {}

namespace Play

/-- The updates that the consumer has received, the present one included. -/
def updates (play : Play) : List Update :=
  play.scene.history.filterMap Note.update? ++ play.call.offered?.toList

/-- The requests that connections were opened with. -/
def requests (play : Play) : List Request :=
  play.scene.history.filterMap Note.request?

/-- The call takes a step, unless it has ended. -/
def step (play : Play) : Play :=
  match play.call.action with
  | .finish | .fail _ => play
  | .follow action =>
      let (answer, scene) := play.scene.perform play.call.controller.key action
      { call := play.call.advance answer
        scene
        ledger := play.ledger.hear play.call.controller answer }
  | .check =>
      { play with
        call := play.call.advance play.scene.checked
        ledger :=
          match play.call.controller.action, play.scene.checked with
          | .deliver item, .done => play.ledger.take item
          | _, _ => play.ledger }
  | .deliver update =>
      { play with
        call := play.call.advance .done
        scene := play.scene.consume (.update update) }

/-- Something happens. -/
def next (play : Play) : Happening → Play
  | .step => play.step
  | .cancel => { play with scene := { play.scene with clock := play.scene.clock.cancel } }
  | .serve script current => { play with scene := { play.scene with script, current } }
  | .elsewhere key progress =>
      if key = play.call.controller.key then
        play
      else
        { play with scene := play.scene.overwrite key progress }

/-- Any number of things happen, one after the other. -/
def run (play : Play) (happenings : List Happening) : Play :=
  happenings.foldl next play

end Play

/-! ### Rehearsals are plays -/

namespace Call

/-- A rehearsal of a call that goes on takes the steps of a play. -/
theorem rehearse_succ
    (steps : Nat)
    {play : Play}
    (goesOn : ¬play.call.HasEnded)
    (hungry :
      ∀ update,
        play.call.action = .deliver update →
        (play.scene.consume (.update update)).appetite.isSated = false) :
    play.call.rehearse (steps + 1) play.scene =
      play.step.call.rehearse steps play.step.scene := by
  rw [rehearse, Play.step]
  cases asked : play.call.action with
  | finish => exact absurd (.inl asked) goesOn
  | fail error => exact absurd (.inr ⟨error, asked⟩) goesOn
  | deliver update => simp [hungry update asked]
  | follow | check => rfl

/-- How a rehearsal leaves the surroundings where its play stops. -/
inductive LeftAs (play : Play) : Scene → Prop where
  | spent : LeftAs play play.scene
  | finished :
      play.call.action = .finish →
      LeftAs play (play.scene.close none)
  | failed {error : ClientError} :
      play.call.action = .fail error →
      LeftAs play (play.scene.close (some error))
  | sated {update : Update} :
      play.call.action = .deliver update →
      LeftAs play (play.scene.consume (.update update))

/-- A rehearsal is a play in which nothing happens but steps. -/
theorem rehearse_eq_run (steps : Nat) (play : Play) :
    ∃ count,
      count ≤ steps ∧
        let last := play.run (List.replicate count .step)
        (play.call.rehearse steps play.scene).1 = last.call.tapped ∧
          LeftAs last (play.call.rehearse steps play.scene).2 := by
  induction steps generalizing play with
  | zero =>
      exact ⟨0, Nat.le_refl 0, rfl, .spent⟩
  | succ steps inductionHypothesis =>
      by_cases ended : play.call.HasEnded
      · refine ⟨0, Nat.zero_le _, ?_⟩
        rcases ended with asked | ⟨error, asked⟩
        · rw [rehearse, asked]
          exact ⟨rfl, .finished asked⟩
        · rw [rehearse, asked]
          exact ⟨rfl, .failed asked⟩
      by_cases hungry :
        ∀ update,
          play.call.action = .deliver update →
          (play.scene.consume (.update update)).appetite.isSated = false
      · obtain ⟨count, few, same⟩ := inductionHypothesis play.step
        rw [rehearse_succ steps ended hungry]
        exact ⟨count + 1, Nat.succ_le_succ few, same⟩
      · simp only [not_forall, Bool.not_eq_false] at hungry
        obtain ⟨update, asked, sated⟩ := hungry
        refine ⟨0, Nat.zero_le _, ?_⟩
        rw [rehearse, asked]
        simp only [sated, if_true]
        exact ⟨rfl, .sated asked⟩

end Call

/-- What one step does to a call and its surroundings. -/
inductive PlayTransition (play : Play) : Play → Prop where
  | ended :
      play.call.HasEnded →
      PlayTransition play play
  | delivered {update : Update} :
      play.call.stage = .delivering update →
      PlayTransition play
        { play with
          call := play.call.resume
          scene := play.scene.consume (.update update) }
  | cancelled {item : Delivery} :
      play.call.stage = .following →
      play.call.controller.action = .deliver item →
      play.scene.clock.cancelled = true →
      PlayTransition play { play with call := { play.call with stage := .failed .cancelled } }
  | taken {item : Delivery} :
      play.call.stage = .following →
      play.call.controller.action = .deliver item →
      play.scene.clock.cancelled = false →
      PlayTransition play
        { play with
          call := play.call.receive item
          ledger := play.ledger.take item }
  | followed {action : Action} {answer : Answer} {scene : Scene} :
      play.call.action = .follow action →
      play.scene.perform play.call.controller.key action = (answer, scene) →
      PlayTransition play
        { call := { play.call with controller := play.call.controller.advance answer }
          scene
          ledger := play.ledger.hear play.call.controller answer }

/--
What happens around a call that takes no step: nothing is noted, the store stays as willing
and holds the same under the key, and a token that is cancelled stays so.
-/
structure Scene.Drifts (scene : Scene) (key : String) (next : Scene) : Prop where
  notes_eq : next.notes = scene.notes
  refusing_eq : next.refusing = scene.refusing
  cancelled : scene.clock.cancelled = true → next.clock.cancelled = true
  stored :
    ∀ memory,
      scene.store = .memory memory →
      ∃ after : Memory, next.store = .memory after ∧ after.load key = memory.load key

/-- Writing under another key leaves what is held under this one. -/
theorem Scene.drifts_overwrite
    (scene : Scene)
    {key other : String}
    (different : key ≠ other)
    (progress : Option Progress) :
    scene.Drifts key (scene.overwrite other progress) := by
  cases progress with
  | none =>
      refine ⟨rfl, rfl, id, fun memory store => ⟨memory.clear other, ?_, ?_⟩⟩
      · simp [overwrite, store, Store.clear]
      · exact Memory.load_clear_of_ne different memory
  | some progress =>
      refine ⟨rfl, rfl, id, fun memory store => ⟨memory.save other progress, ?_, ?_⟩⟩
      · simp [overwrite, store, Store.save]
      · exact Memory.load_save_of_ne different memory progress

namespace Play

variable {play : Play}

/-- The update that is handed over is the one that the call holds. -/
theorem stage_of_deliver
    {call : Call}
    {update : Update}
    (asked : call.action = .deliver update) :
    call.stage = .delivering update := by
  have offered := CallSession.offered?_of_deliver asked
  unfold Call.offered? at offered
  split at offered
  · next stage => rw [stage, Option.some.inj offered]
  · cases offered

/-- A call looks at the token when its stream offers an item. -/
theorem offered_of_check
    {call : Call}
    (asked : call.action = .check) :
    call.stage = .following ∧ ∃ item, call.controller.action = .deliver item := by
  cases stage : call.stage with
  | delivering | failed =>
      simp [Call.action, stage] at asked
  | following =>
      rcases call.action_following stage with
        ⟨item, offered, -⟩ | ⟨-, other⟩ | ⟨error, -, other⟩ | ⟨-, other⟩
      · exact ⟨rfl, item, offered⟩
      all_goals cases asked.symm.trans other

/-- A step is a transition. -/
theorem step_transition (play : Play) : PlayTransition play play.step := by
  rw [step]
  cases asked : play.call.action with
  | finish =>
      exact .ended (.inl asked)
  | fail error =>
      exact .ended (.inr ⟨error, asked⟩)
  | deliver update =>
      have stage := stage_of_deliver asked
      have resumed : play.call.advance .done = play.call.resume := by
        simp [Call.advance, stage]
      rw [resumed]
      exact .delivered stage
  | check =>
      obtain ⟨stage, item, offered⟩ := offered_of_check asked
      obtain ⟨received, failed⟩ := Call.advance_item stage offered
      cases cancelled : play.scene.clock.cancelled with
      | true =>
          have checked : play.scene.checked = .failed .cancelled := by
            simp [Scene.checked, cancelled]
          simp only [checked, failed, offered]
          exact .cancelled stage offered cancelled
      | false =>
          have checked : play.scene.checked = .done := by
            simp [Scene.checked, cancelled]
          simp only [checked, received, offered]
          exact .taken stage offered cancelled
  | follow action =>
      obtain ⟨stage, same, offersNothing, -, -⟩ := CallSession.following_of_follow asked
      subst same
      simp only [Call.advance_followed stage offersNothing]
      exact .followed asked rfl

/-- What happens is a step, or leaves the call as it was. -/
theorem next_cases (play : Play) (happening : Happening) :
    (happening.isStep = true ∧ PlayTransition play (play.next happening)) ∨
      (happening.isStep = false ∧
        ∃ scene,
          play.scene.Drifts play.call.controller.key scene ∧
            play.next happening = { play with scene }) := by
  cases happening with
  | step =>
      exact .inl ⟨rfl, play.step_transition⟩
  | cancel =>
      exact .inr ⟨rfl, { play.scene with clock := play.scene.clock.cancel },
        ⟨rfl, rfl, fun _ => rfl, fun memory store => ⟨memory, store, rfl⟩⟩, rfl⟩
  | serve script current =>
      exact .inr ⟨rfl, { play.scene with script, current },
        ⟨rfl, rfl, id, fun memory store => ⟨memory, store, rfl⟩⟩, rfl⟩
  | elsewhere key progress =>
      by_cases same : key = play.call.controller.key
      · refine .inr ⟨rfl, play.scene,
          ⟨rfl, rfl, id, fun memory store => ⟨memory, store, rfl⟩⟩, ?_⟩
        simp [next, same]
      · refine .inr ⟨rfl, _, Scene.drifts_overwrite play.scene (Ne.symm same) progress, ?_⟩
        simp [next, same]

/-- What every step and everything around a call keeps, a play keeps. -/
theorem run_keeps
    (Invariant : Play → Prop)
    (transition :
      ∀ play next, Invariant play → PlayTransition play next → Invariant next)
    (drift :
      ∀ play scene,
        Invariant play →
        play.scene.Drifts play.call.controller.key scene →
        Invariant { play with scene })
    (initial : Invariant play)
    (happenings : List Happening) :
    Invariant (play.run happenings) := by
  induction happenings generalizing play with
  | nil =>
      exact initial
  | cons happening rest inductionHypothesis =>
      apply inductionHypothesis
      rcases play.next_cases happening with ⟨-, taken⟩ | ⟨-, scene, drifts, shape⟩
      · exact transition play _ initial taken
      · rw [shape]
        exact drift play scene initial drifts

end Play

end AgentWire.Client

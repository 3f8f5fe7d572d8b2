import AgentWire.Proofs.Client.Ledger

namespace AgentWire.Client

/-!
# Calls that are cancelled

Once its token is cancelled, a call does nothing that can be noticed any more (`Still`): it
taps no event, its machine stays as it is, no update is handed over and no connection is
opened.  It ends within three steps, since every stage is at most two steps before the next
look at the token.  What it leaves behind is what is true at every moment of it (`Play.Covered`):
the call has taken nothing that is not stored.
-/

open Chat (ChatMessage Update)
open Resume (Memory)

/-! ### What the surroundings of a cancelled call answer -/

namespace Scene

variable {scene : Scene}

theorem clock_useStore
    (scene : Scene)
    (step : StoreStep)
    (use : Resume.Store → Answer × Resume.Store) :
    (scene.useStore step use).2.clock = scene.clock := by
  simp only [useStore]
  split <;> rfl

/-- What is done for a call that is cancelled tells of nothing, and the token stays cancelled. -/
theorem perform_cancelled
    (cancelled : scene.clock.cancelled = true)
    (key : String)
    (action : Action) :
    (scene.perform key action).2.clock.cancelled = true ∧
      ∃ more,
        (scene.perform key action).2.history = scene.history ++ more ∧ Tells more [] [] [] := by
  cases action with
  | connect request | read =>
      simp only [perform, cancelled, if_true]
      exact ⟨trivial, [], by simp, .nothing _⟩
  | load | save | append | clear =>
      refine ⟨?_, scene.perform_tells key _ .done⟩
      simp only [perform, clock_useStore]
      exact cancelled
  | wait delay =>
      refine ⟨?_, scene.perform_tells key _ .done⟩
      simp [perform, Clock.wait, cancelled]
  | deliver | finish | fail =>
      exact ⟨cancelled, scene.perform_tells key _ .done⟩

/-- How an action of a call that is cancelled is answered. -/
def Settles (action : Action) (answer : Answer) : Prop :=
  match action with
  | .connect _ | .read | .wait _ => answer = .failed .cancelled
  | .load => (∃ stored, answer = .loaded stored) ∨ ∃ error, answer = .failed error
  | .save _ | .append _ _ | .clear => answer = .done ∨ ∃ error, answer = .failed error
  | .deliver _ | .finish | .fail _ => answer = .done

/-- A use of a store is done, or it has failed. -/
theorem answerOf_cases (result : Except ClientError Unit) :
    answerOf result = .done ∨ ∃ error, answerOf result = .failed error := by
  cases result with
  | ok => exact .inl rfl
  | error error => exact .inr ⟨error, rfl⟩

/-- A store does what it is asked for, or refuses. -/
theorem useStore_cases
    (scene : Scene)
    (step : StoreStep)
    (use : Resume.Store → Answer × Resume.Store) :
    (scene.useStore step use).1 = (use scene.store).1 ∨
      ∃ error, (scene.useStore step use).1 = .failed error := by
  simp only [useStore]
  split
  · exact .inr ⟨_, rfl⟩
  · exact .inl rfl

/-- For a call that is cancelled only the store goes on. -/
theorem settles_of_cancelled
    (cancelled : scene.clock.cancelled = true)
    (key : String)
    (action : Action) :
    Settles action (scene.perform key action).1 := by
  cases action with
  | connect request | read =>
      simp [Settles, perform, cancelled]
  | wait delay =>
      simp [Settles, perform, Clock.wait, cancelled]
  | deliver | finish | fail =>
      rfl
  | load =>
      rcases useStore_cases (scene.note (.loaded key)) .load _ with used | refused
      · rw [Settles, perform, used]
        split
        · exact .inl ⟨_, rfl⟩
        · exact .inr ⟨_, rfl⟩
      · exact .inr refused
  | save | append | clear =>
      rcases useStore_cases (scene.note _) _ _ with used | refused
      · rw [Settles, perform, used]
        exact answerOf_cases _
      · exact .inr refused

end Scene

/-! ### What is left to do -/

namespace Controller

/-- At most how many more steps a controller takes that is cancelled. -/
def stepsLeft (controller : Controller) : Nat :=
  match controller.stage with
  | .finished | .failed _ => 0
  | .replaying _ _ | .connecting | .forgotten | .reading | .restarted _ _ | .delivering _
  | .closing | .waiting _ => 1
  | .loading | .forgetting | .restarting _ | .saving _ | .appending _ | .settling _ => 2

/-- No stage is more than two steps before an end or a look at the token. -/
theorem stepsLeft_le_two (controller : Controller) : controller.stepsLeft ≤ 2 := by
  unfold stepsLeft
  split <;> decide

/-- From a replay it is one step to the next look at the token. -/
theorem stepsLeft_replay (controller : Controller) (events : List Event) :
    (controller.replay events).stepsLeft = 1 := by
  cases events <;> rfl

/-- A controller that is cancelled gets nearer to its end by each answer. -/
theorem stepsLeft_advance
    {controller : Controller}
    {answer : Answer}
    (settles : Scene.Settles controller.action answer)
    (offersNothing : ∀ item, controller.action ≠ .deliver item) :
    (controller.advance answer).stepsLeft ≤ controller.stepsLeft - 1 := by
  cases stage : controller.stage with
  | replaying | forgotten | restarted | delivering =>
      simp [action, stage] at offersNothing
  | finished | failed =>
      simp [advance, stage, stepsLeft]
  | loading =>
      simp only [Scene.Settles, action, stage] at settles
      rcases settles with ⟨stored, rfl⟩ | ⟨error, rfl⟩
      · simp only [advance, stage, begin, stepsLeft_replay]
        simp [stepsLeft, stage]
      · simp [advance, stage, goTo, stepsLeft]
  | connecting | reading | waiting =>
      simp only [Scene.Settles, action, stage] at settles
      subst settles
      simp [advance, stage, refused, fallBack, ClientError.isRetryable, proceed, goTo, stepsLeft]
  | forgetting =>
      simp only [Scene.Settles, action, stage] at settles
      rcases settles with rfl | ⟨error, rfl⟩
      · cases delivered : controller.delivered <;>
          simp [advance, stage, proceed, delivered, forget, goTo, stepsLeft]
      · simp [advance, stage, proceed, goTo, stepsLeft]
  | restarting | saving | appending | settling | closing =>
      simp only [Scene.Settles, action, stage] at settles
      rcases settles with rfl | ⟨error, rfl⟩ <;>
        simp [advance, stage, proceed, goTo, stepsLeft]

end Controller

namespace Call

/-- At most how many more steps a call takes that is cancelled. -/
def stepsLeft (call : Call) : Nat :=
  match call.stage with
  | .failed _ => 0
  | .following => call.controller.stepsLeft
  | .delivering _ => 3

/-- A consumer that has taken its update is one step further from the end. -/
theorem stepsLeft_le_three (call : Call) : call.stepsLeft ≤ 3 := by
  unfold stepsLeft
  split
  · decide
  · exact Nat.le_succ_of_le call.controller.stepsLeft_le_two
  · exact Nat.le_refl 3

/-- A call has ended exactly if no step is left. -/
theorem hasEnded_iff {call : Call} : call.HasEnded ↔ call.stepsLeft = 0 := by
  rw [HasEnded]
  cases stage : call.stage with
  | delivering => simp [stepsLeft, action, stage]
  | failed => simp [stepsLeft, action, stage]
  | following =>
      cases below : call.controller.stage <;>
        simp [stepsLeft, Controller.stepsLeft, action, Controller.action, stage, below]

end Call

/-! ### Nothing happens any more -/

/-- The answers to a controller that is cancelled say nothing of the run. -/
theorem Ledger.hear_of_settles
    {controller : Controller}
    {answer : Answer}
    (settles : Scene.Settles controller.action answer)
    (ledger : Ledger) :
    ledger.hear controller answer = ledger := by
  unfold hear
  cases asked : controller.action with
  | connect request =>
      rw [asked] at settles
      cases request <;> rw [settles]
  | read =>
      rw [asked] at settles
      rw [settles]
  | _ => rfl

namespace Play

variable {play next later last : Play}

/-- Between two moments nothing has happened that can be noticed. -/
structure Still (play later : Play) : Prop where
  tapped_eq : later.call.tapped = play.call.tapped
  inbound_eq : later.call.inbound = play.call.inbound
  updates_eq : later.updates = play.updates
  requests_eq : later.requests = play.requests
  ledger_eq : later.ledger = play.ledger

theorem Still.refl (play : Play) : Still play play :=
  ⟨rfl, rfl, rfl, rfl, rfl⟩

/-- Nothing happened in two spans if nothing happened in either of them. -/
theorem Still.trans (first : Still play later) (second : Still later last) : Still play last where
  tapped_eq := second.tapped_eq.trans first.tapped_eq
  inbound_eq := second.inbound_eq.trans first.inbound_eq
  updates_eq := second.updates_eq.trans first.updates_eq
  requests_eq := second.requests_eq.trans first.requests_eq
  ledger_eq := second.ledger_eq.trans first.ledger_eq

/-- A step of a call that is cancelled cannot be noticed, and the token stays cancelled. -/
theorem still_of_cancelled
    (cancelled : play.scene.clock.cancelled = true)
    (taken : PlayTransition play next) :
    Still play next ∧ next.scene.clock.cancelled = true := by
  cases taken with
  | ended =>
      exact ⟨.refl play, cancelled⟩
  | @delivered update stage =>
      -- The consumer has had the update since it was offered.
      refine ⟨⟨rfl, rfl, ?_, ?_, rfl⟩, ?_⟩
      · simp [updates, Scene.history_consume, Note.update?, Call.offered?, stage, Call.resume]
      · simp [requests, Scene.history_consume, Note.request?]
      · simp only [Scene.consume, Appetite.take]
        split
        · rfl
        · exact cancelled
  | cancelled stage =>
      exact ⟨⟨rfl, rfl, by simp [updates, Call.offered?, stage], rfl, rfl⟩, cancelled⟩
  | taken stage offered goesOn =>
      exact absurd cancelled (by simp [goesOn])
  | @followed action answer scene asked performed =>
      obtain ⟨stage, same, -, -, -⟩ := CallSession.following_of_follow asked
      have settles := Scene.settles_of_cancelled cancelled play.call.controller.key action
      obtain ⟨still, more, history, tells⟩ :=
        Scene.perform_cancelled cancelled play.call.controller.key action
      simp only [performed] at settles still history
      have requestsNothing : more.filterMap Note.request? = [] :=
        List.sublist_nil.mp tells.requests_sublist
      refine ⟨⟨rfl, rfl, ?_, ?_, ?_⟩, still⟩
      · simp [updates, history, tells.updates_eq, Call.offered?, stage]
      · simp [requests, history, requestsNothing]
      · rw [← same] at settles
        exact Ledger.hear_of_settles settles play.ledger

/-- What happens around a call is not noticed as something that the call did. -/
theorem Still.drift
    {scene : Scene}
    (drifts : play.scene.Drifts play.call.controller.key scene) :
    Still play { play with scene } := by
  refine ⟨rfl, rfl, ?_, ?_, rfl⟩
  · simp [updates, Scene.history, drifts.notes_eq]
  · simp [requests, Scene.history, drifts.notes_eq]

/-- Whatever happens to a call that is cancelled, nothing of it can be noticed. -/
theorem still_run
    (cancelled : play.scene.clock.cancelled = true)
    (happenings : List Happening) :
    Still play (play.run happenings) ∧ (play.run happenings).scene.clock.cancelled = true := by
  refine run_keeps (fun later => Still play later ∧ later.scene.clock.cancelled = true)
    ?_ ?_ ⟨.refl play, cancelled⟩ happenings
  · rintro later next ⟨still, cancelled⟩ taken
    obtain ⟨stillNext, cancelledNext⟩ := still_of_cancelled cancelled taken
    exact ⟨still.trans stillNext, cancelledNext⟩
  · rintro later scene ⟨still, cancelled⟩ drifts
    exact ⟨still.trans (.drift drifts), drifts.cancelled cancelled⟩

/-- A step of a call that is cancelled leaves fewer steps, unless it has ended. -/
theorem stepsLeft_of_cancelled
    (cancelled : play.scene.clock.cancelled = true)
    (taken : PlayTransition play next) :
    next.call.stepsLeft ≤ play.call.stepsLeft - 1 := by
  cases taken with
  | ended ended =>
      simp [Call.hasEnded_iff.mp ended]
  | delivered stage =>
      have few := (play.call.controller.advance .done).stepsLeft_le_two
      simpa [Call.stepsLeft, stage, Call.resume] using few
  | cancelled stage =>
      simp [Call.stepsLeft]
  | taken stage offered goesOn =>
      exact absurd cancelled (by simp [goesOn])
  | @followed action answer scene asked performed =>
      obtain ⟨stage, same, offersNothing, -, -⟩ := CallSession.following_of_follow asked
      have settles := Scene.settles_of_cancelled cancelled play.call.controller.key action
      subst same
      rw [performed] at settles
      simpa [Call.stepsLeft, stage] using Controller.stepsLeft_advance settles offersNothing

/-- Each step of a call that is cancelled brings it nearer to its end. -/
theorem stepsLeft_run
    (cancelled : play.scene.clock.cancelled = true)
    (happenings : List Happening) :
    (play.run happenings).call.stepsLeft ≤
      play.call.stepsLeft - happenings.countP Happening.isStep := by
  induction happenings generalizing play with
  | nil =>
      exact Nat.le_refl _
  | cons happening rest inductionHypothesis =>
      have nearer :
          (play.next happening).call.stepsLeft ≤
            play.call.stepsLeft - if happening.isStep then 1 else 0 := by
        rcases play.next_cases happening with ⟨steps, taken⟩ | ⟨rests, scene, -, shape⟩
        · simpa [steps] using stepsLeft_of_cancelled cancelled taken
        · simp [rests, shape]
      have cancelledNext := (still_run cancelled [happening]).2
      calc (play.run (happening :: rest)).call.stepsLeft
          ≤ (play.next happening).call.stepsLeft - rest.countP Happening.isStep :=
            inductionHypothesis cancelledNext
        _ ≤ play.call.stepsLeft - (happening :: rest).countP Happening.isStep := by
            rw [List.countP_cons]
            omega

/-- A call that ends well knows that its run is complete. -/
theorem Informed.complete_of_finish
    (informed : Informed play)
    (ends : play.call.action = .finish) :
    play.ledger.complete = true := by
  apply informed.closing
  cases stage : play.call.stage with
  | delivering | failed => simp [Call.action, stage] at ends
  | following =>
      rcases play.call.action_following stage with
        ⟨item, -, other⟩ | ⟨closes, -⟩ | ⟨error, -, other⟩ | ⟨-, other⟩
      · cases ends.symm.trans other
      · unfold Controller.action at closes
        split at closes <;> simp_all [Controller.isClosing]
      · cases ends.symm.trans other
      · cases ends.symm.trans other

/--
Nothing happens after cancellation.  Whatever a call has gone through when its token is
cancelled, and whatever happens then, no event is tapped or reaches the machine, no update
is handed over and no connection is opened.  Three steps later at most the call has ended,
with an error unless it knew that its run is complete.  What is held under its key still has
all events in order that the call has taken of a run that is not over and was not given up,
and it can be resumed from if that was so when the call started.
-/
theorem nothing_after_cancellation
    {settings : CallSettings}
    {messages : List ChatMessage}
    {options : Options}
    {supply : IdSupply}
    {call : Call}
    (started : Call.start settings messages options supply = .ok call)
    (scene : Scene)
    (before after : List Happening)
    (cancelled : (run { call, scene } before).scene.clock.cancelled = true) :
    let play := run { call, scene } before
    let later := play.run after
    later.call.tapped = play.call.tapped ∧
      later.call.inbound = play.call.inbound ∧
      later.updates = play.updates ∧
      later.requests = play.requests ∧
      (3 ≤ after.countP Happening.isStep → later.call.HasEnded) ∧
      (later.call.action = .finish → play.ledger.complete = true) ∧
      ∀ memory,
        scene.Shows memory [] →
        ∃ kept : Memory,
          later.scene.store = .memory kept ∧
            play.ledger.running.Sublist ((kept.load call.controller.key).getD {}).events ∧
            (Resumable (memory.load call.controller.key) →
              Resumable (kept.load call.controller.key)) := by
  intro play later
  obtain ⟨fresh, -, -⟩ := CallSession.fresh_of_start started
  have whole : later = run { call, scene } (before ++ after) := by
    simp [later, play, run]
  have still : Still play later := (still_run cancelled after).1
  refine ⟨still.tapped_eq, still.inbound_eq, still.updates_eq, still.requests_eq, ?_, ?_, ?_⟩
  · intro enough
    have nearer : later.call.stepsLeft ≤ play.call.stepsLeft - after.countP Happening.isStep :=
      stepsLeft_run cancelled after
    have few := play.call.stepsLeft_le_three
    exact Call.hasEnded_iff.mpr (by omega)
  · intro ends
    have informed : Informed later := whole ▸ informed_run fresh scene (before ++ after)
    rw [← still.ledger_eq]
    exact informed.complete_of_finish ends
  · intro memory shows
    obtain ⟨kept, covered⟩ := covered_run fresh shows (before ++ after)
    rw [← whole] at covered
    refine ⟨kept, covered.shows.store, ?_, fun resumable => ?_⟩
    · rw [← still.ledger_eq]
      exact covered.secured.running_sublist
    · obtain ⟨segment, ahead⟩ := covered.ahead resumable
      exact ahead.resumable

end Play

namespace ShortRun

/-- What the caller asks. -/
def question : List ChatMessage :=
  [{ role := .user, contents := [.text "Hi"], messageId := some "m0" }]

/-- A call that goes on with the run that was left over. -/
def goingOn : Call where
  controller :=
    { policy := {}
      key := "run"
      input :=
        { threadId := "run"
          runId := IdSupply.idAt 0 0
          messages := [.spoken .user "m0" "Hi" none] } }
  identity := .ofClient (some "run")
  supply := { used := 1 }

/-- The server goes on with the second event. -/
def surroundings : Scene where
  store := .memory leftOver
  script := [.ok [.arrival (.ok (.event spoken))]]

/-- The token is cancelled when the second event is stored, but not yet taken. -/
def cutOff : List Happening :=
  List.replicate 6 .step ++ [.cancel]

end ShortRun

namespace Play

open ShortRun

/-- A call that is cancelled between storing an event and taking it. -/
theorem nothing_after_cancellation_cut_off :
    let play := run { call := goingOn, scene := surroundings } cutOff
    let later := play.run (List.replicate 3 .step)
    play.call.controller.action = .deliver (.event spoken) ∧
      play.ledger.running = [ShortRun.started] ∧
      play.scene.clock.cancelled = true ∧
      later.call.tapped = [ShortRun.started] ∧
      later.requests = [.resume "run" 1] ∧
      later.call.HasEnded ∧
      later.call.action ≠ .finish ∧
      ∃ kept : Memory,
        later.scene.store = .memory kept ∧
          [ShortRun.started].Sublist ((kept.load "run").getD {}).events ∧
          Resumable (kept.load "run") := by
  intro play later
  have begun : Call.start {} question { conversationId := some "run" } {} = .ok goingOn := by
    decide +kernel
  have cancelled : play.scene.clock.cancelled = true := by
    decide +kernel
  have running : play.ledger.running = [ShortRun.started] := by
    decide +kernel
  have tapped : play.call.tapped = [ShortRun.started] := by
    decide +kernel
  have requests : play.requests = [.resume "run" 1] := by
    decide +kernel
  have incomplete : play.ledger.complete ≠ true := by
    decide +kernel
  have shows : surroundings.Shows leftOver [] :=
    ⟨rfl, rfl, rfl, by simp [surroundings]⟩
  have resumable : Resumable (leftOver.load "run") := by
    have found : leftOver.load "run" = some (.ofEvents [ShortRun.started]) := by
      decide +kernel
    rintro progress stored
    cases stored.symm.trans found
    exact ⟨by decide +kernel, by decide +kernel, by decide +kernel⟩
  obtain ⟨sameTapped, -, -, sameRequests, ends, finishes, held⟩ :=
    nothing_after_cancellation begun surroundings cutOff (List.replicate 3 .step) cancelled
  obtain ⟨kept, store, stored, resumes⟩ := held leftOver shows
  rw [running] at stored
  exact ⟨by decide +kernel, running, cancelled, sameTapped.trans tapped,
    sameRequests.trans requests, ends (by decide), fun ends => incomplete (finishes ends), kept,
    store, stored, resumes resumable⟩

end Play

end AgentWire.Client

import AgentWire.Proofs.Client.CallSession
import AgentWire.Proofs.Client.Rehearsal

namespace AgentWire.Client

/-!
# Rehearsals of calls are sessions

A rehearsal of a call over a store in memory that refuses nothing takes a session of the
call through some moves.  The consumer receives the updates that the session hands over,
and each request that is noted is one of the session; a request that is given up because
the call is cancelled is not noted.
-/

open Chat (FunctionCall Update)
open Resume (Memory)

namespace Note

/-- The update that a note tells of. -/
def update? : Note → Option Update
  | .update told => some told
  | _ => none

/-- The function that a note tells of. -/
def function? : Note → Option FunctionCall
  | .invoked call => some call
  | _ => none

/-- The request that a note tells of. -/
def request? : Note → Option Request
  | .connected request _ => some request
  | _ => none

end Note

/-- Notes tell of these updates and functions, and of no other requests than these. -/
structure Tells
    (notes : List Note)
    (updates : List Update)
    (functions : List FunctionCall)
    (requests : List Request) :
    Prop where
  updates_eq : notes.filterMap Note.update? = updates
  functions_eq : notes.filterMap Note.function? = functions
  requests_sublist : (notes.filterMap Note.request?).Sublist requests

namespace Tells

theorem nothing (requests : List Request) : Tells [] [] [] requests :=
  ⟨rfl, rfl, List.nil_sublist requests⟩

/-- What more notes tell comes behind what the others tell. -/
theorem append
    {notes more : List Note}
    {updates moreUpdates : List Update}
    {functions moreFunctions : List FunctionCall}
    {requests moreRequests : List Request}
    (tells : Tells notes updates functions requests)
    (others : Tells more moreUpdates moreFunctions moreRequests) :
    Tells (notes ++ more) (updates ++ moreUpdates) (functions ++ moreFunctions)
      (requests ++ moreRequests) where
  updates_eq := by
    rw [List.filterMap_append, tells.updates_eq, others.updates_eq]
  functions_eq := by
    rw [List.filterMap_append, tells.functions_eq, others.functions_eq]
  requests_sublist := by
    rw [List.filterMap_append]
    exact tells.requests_sublist.append others.requests_sublist

end Tells

/-! ### What a scene notes -/

namespace Scene

theorem history_note (scene : Scene) (note : Note) :
    (scene.note note).history = scene.history ++ [note] := by
  simp [history, Scene.note]

/-- A store notes nothing by itself. -/
theorem notes_useStore
    (scene : Scene)
    (step : StoreStep)
    (use : Resume.Store → Answer × Resume.Store) :
    (scene.useStore step use).2.notes = scene.notes := by
  simp only [useStore]
  split <;> rfl

/-- Reading from a connection notes nothing. -/
theorem notes_read (scene : Scene) (cues : List Cue) :
    (scene.read cues).2.notes = scene.notes := by
  induction cues generalizing scene with
  | nil =>
      rfl
  | cons cue rest inductionHypothesis =>
      cases cue with
      | arrival value =>
          cases value <;> rfl
      | pause milliseconds =>
          simp only [read]
          split
          · exact inductionHypothesis _
          · rfl

/-- What the consumer receives is noted behind all else. -/
theorem history_consume (scene : Scene) (note : Note) :
    (scene.consume note).history = scene.history ++ [note] :=
  history_note scene note

/-- What is noted of a step of a controller is at most the request that it makes. -/
theorem perform_tells (scene : Scene) (key : String) (action : Action) (answer : Answer) :
    ∃ more,
      (scene.perform key action).2.history = scene.history ++ more ∧
        Tells more [] [] ([⟨action, answer⟩].filterMap Exchange.request?) := by
  have stored
      (note : Note)
      (step : StoreStep)
      (use : Resume.Store → Answer × Resume.Store) :
      ((scene.note note).useStore step use).2.history = scene.history ++ [note] := by
    rw [history, notes_useStore]
    exact history_note scene note
  cases action with
  | load | save | append | clear =>
      exact ⟨_, stored _ _ _, rfl, rfl, List.Sublist.refl _⟩
  | connect request =>
      simp only [perform]
      split
      · exact ⟨[], by simp, .nothing _⟩
      · refine ⟨[.connected request scene.clock.now], ?_, rfl, rfl, List.Sublist.refl _⟩
        rw [← history_note]
        simp only [connect]
        split <;> rfl
  | read =>
      simp only [perform]
      split
      · exact ⟨[], by simp, .nothing _⟩
      · refine ⟨[], ?_, .nothing _⟩
        rw [history, notes_read, List.append_nil]
        rfl
  | wait | deliver | finish | fail =>
      exact ⟨[], by simp [history, perform], .nothing _⟩

/-- The end of a stream tells of nothing that was asked for. -/
theorem close_tells (scene : Scene) (error : Option ClientError) :
    ∃ more, (scene.close error).history = scene.history ++ more ∧ Tells more [] [] [] := by
  cases error with
  | none =>
      exact ⟨[.ended], history_note scene .ended, rfl, rfl, List.nil_sublist _⟩
  | some error =>
      simp only [close]
      split
      · exact ⟨_, history_consume scene (.failed error), rfl, rfl, List.nil_sublist _⟩
      · refine ⟨[.failed error, .ended], ?_, rfl, rfl, List.nil_sublist _⟩
        rw [history_note, history_consume, List.append_assoc]
        rfl

/-- The consumer receives something that is no item of a stream. -/
theorem Shows.receive
    {scene : Scene}
    {memory : Memory}
    {items : List Delivery}
    (shows : scene.Shows memory items)
    (note : Note)
    (silent : note.item? = none)
    (goesOn : note ≠ .ended) :
    (scene.consume note).Shows memory items := by
  obtain ⟨willing, store, same, unended⟩ := shows.note note silent goesOn
  exact ⟨willing, store, same, unended⟩

end Scene

/-! ### Steps of a call -/

namespace CallSession

variable
  {session : CallSession}
  {scene : Scene}

/--
A call that follows its stream does what the controller asks for, and no delivery is among
it.
-/
theorem following_of_follow
    {call : Call}
    {action : Action}
    (asked : call.action = .follow action) :
    call.stage = .following ∧
      call.controller.action = action ∧
      (∀ item, action ≠ .deliver item) ∧
      action ≠ .finish ∧
      ∀ error, action ≠ .fail error := by
  cases stage : call.stage with
  | delivering | failed =>
      simp [Call.action, stage] at asked
  | following =>
      rcases call.action_following stage with
        ⟨item, -, other⟩ | ⟨-, other⟩ | ⟨error, -, other⟩ | ⟨offersNothing, other⟩
      · cases asked.symm.trans other
      · cases asked.symm.trans other
      · cases asked.symm.trans other
      · cases asked.symm.trans other
        refine ⟨rfl, rfl, offersNothing, ?_, ?_⟩
        · intro finishes
          simp [Call.action, stage, finishes] at asked
        · intro error fails
          simp [Call.action, stage, fails] at asked

/-- What a scene answers to the controller of a call is a reply of the stream below. -/
theorem reply?_of_follow
    {call : Call}
    {stream : Session}
    {action : Action}
    (asked : call.action = .follow action)
    (below : stream.controller = call.controller)
    (shows : scene.Shows stream.memory []) :
    let performed := scene.perform call.controller.key action
    ∃ memory,
      stream.reply? performed.1 = some (performed.1, memory) ∧ performed.2.Shows memory [] := by
  obtain ⟨-, rfl, offersNothing, goesOn⟩ := following_of_follow asked
  rw [← below] at offersNothing goesOn ⊢
  have silent : stream.offered? = none := by
    rw [Session.offered?]
    split
    · next item offers => exact absurd offers (offersNothing item)
    · rfl
  exact Scene.perform_reply? shows silent goesOn

/-- A call that follows its stream takes a step of it. -/
theorem step_follow
    {action : Action}
    (asked : session.call.action = .follow action)
    (shows : scene.Shows session.memory []) :
    let performed := scene.perform session.call.controller.key action
    ∃ memory,
      session.step (.answer performed.1) =
          { session with
            call := session.call.advance performed.1
            memory
            history := session.history ++ [⟨action, performed.1⟩] } ∧
        performed.2.Shows memory [] := by
  have below : scene.Shows session.stream.memory [] := shows
  obtain ⟨memory, replied, after⟩ := reply?_of_follow asked rfl below
  obtain ⟨-, rfl, -, -⟩ := following_of_follow asked
  refine ⟨memory, ?_, after⟩
  simp only [stream] at replied
  simp [step, asked, stream, replied]

/-- A call that looks whether it is cancelled hands over nothing and stores nothing. -/
theorem step_check
    (session : CallSession)
    (scene : Scene)
    (asked : session.call.action = .check) :
    ∃ more,
      session.step (.answer scene.checked) =
        { session with
          call := session.call.advance scene.checked
          history := session.history ++ more } := by
  have given : checked scene.checked = scene.checked := by
    simp only [Scene.checked]
    split <;> rfl
  have offersNothing : session.call.offered? = none := by
    cases stage : session.call.stage <;>
      simp_all [Call.action, Call.offered?]
  have stepped : session.step (.answer scene.checked) = session.goOn scene.checked := by
    simp [step, asked, given]
  rw [stepped, goOn, offersNothing]
  split
  · exact ⟨[⟨session.call.controller.action, .done⟩], by simp⟩
  · exact ⟨[], by simp⟩

/-- The update that is to be handed over is the one on offer. -/
theorem offered?_of_deliver
    {call : Call}
    {update : Update}
    (asked : call.action = .deliver update) :
    call.offered? = some update := by
  cases stage : call.stage with
  | delivering other =>
      simpa [Call.action, stage, Call.offered?] using asked
  | failed =>
      simp [Call.action, stage] at asked
  | following =>
      rcases call.action_following stage with
        ⟨item, -, other⟩ | ⟨-, other⟩ | ⟨error, -, other⟩ | ⟨-, other⟩
      all_goals cases asked.symm.trans other

/-- The consumer of a call takes the update that is handed over. -/
theorem step_deliver
    {update : Update}
    (session : CallSession)
    (asked : session.call.action = .deliver update) :
    ∃ more,
      session.step (.answer .done) =
        { session with
          call := session.call.advance .done
          history := session.history ++ more
          updates := session.updates ++ [update] } := by
  have stepped : session.step (.answer .done) = session.goOn .done := by
    simp [step, asked]
  rw [stepped, goOn, offered?_of_deliver asked]
  split
  · exact ⟨[⟨session.call.controller.action, .done⟩], by simp⟩
  · exact ⟨[], by simp⟩

/-- A rehearsal and a session of a call have got equally far. -/
structure Plays (session : CallSession) (scene : Scene) : Prop where
  shows : scene.Shows session.memory []
  tells : Tells scene.history session.updates [] session.requests

/--
What a rehearsal leaves behind is what a session of the call leaves behind.  The consumer
may have left with an update that the session still offers.
-/
structure Played (session : CallSession) (scene : Scene) : Prop where
  store_eq : scene.store = .memory session.memory
  tells :
    Tells scene.history session.updates [] session.requests ∨
      Tells scene.history (session.updates ++ session.call.offered?.toList) [] session.requests
  ended : scene.EndedWell → session.call.action = .finish

/-- A rehearsal that stops here leaves behind what its session does. -/
theorem Plays.played (plays : session.Plays scene) : session.Played scene where
  store_eq := plays.shows.store
  tells := .inl plays.tells
  ended := fun ended => absurd ended.1 plays.shows.unended

/-- The end of the stream is noted, and nothing else. -/
theorem Plays.close
    (plays : session.Plays scene)
    (error : Option ClientError)
    (finishes : error = none → session.call.action = .finish) :
    session.Played (scene.close error) := by
  obtain ⟨more, history, tells⟩ := scene.close_tells error
  obtain ⟨store, -, ended⟩ := plays.shows.close error
  have all := plays.tells.append tells
  simp only [← history, List.append_nil] at all
  exact ⟨store, .inl all, fun well => finishes (ended well)⟩

/-- A step that hands over nothing keeps what was handed over, and adds to the requests. -/
theorem Plays.goOn
    {after : Scene}
    {more : List Note}
    {memory : Memory}
    (plays : session.Plays scene)
    (call : Call)
    (exchanges : List Exchange)
    (shows : after.Shows memory [])
    (noted : after.history = scene.history ++ more)
    (tells : Tells more [] [] (exchanges.filterMap Exchange.request?)) :
    Plays { session with call, memory, history := session.history ++ exchanges } after where
  shows := shows
  tells := by
    have all := plays.tells.append tells
    rwa [← noted, List.append_nil, requests, ← List.filterMap_append] at all

/-- The consumer receives what the session offers, and may leave or ask for more. -/
theorem Plays.receive
    {update : Update}
    (plays : session.Plays scene)
    (asked : session.call.action = .deliver update) :
    session.Played (scene.consume (.update update)) ∧
      (session.step (.answer .done)).Plays (scene.consume (.update update)) := by
  obtain ⟨exchanges, stepped⟩ := session.step_deliver asked
  have shows := plays.shows.receive (.update update) rfl (by simp)
  have received (more : List Request) :
      Tells (scene.consume (.update update)).history (session.updates ++ [update]) []
        (session.requests ++ more) := by
    have update_tells : Tells [.update update] [update] [] more :=
      ⟨rfl, rfl, List.nil_sublist _⟩
    rw [Scene.history_consume]
    exact plays.tells.append update_tells
  refine ⟨⟨shows.store, .inr ?_, fun ended => absurd ended.1 shows.unended⟩, ?_⟩
  · rw [offered?_of_deliver asked, ← List.append_nil session.requests]
    exact received []
  · rw [stepped]
    refine ⟨shows, ?_⟩
    rw [requests, List.filterMap_append]
    exact received _

/--
A rehearsal of a call takes a session through some moves: it taps the same events, leaves
the same store behind, and tells of the same updates and requests.
-/
theorem rehearse_eq_run
    (steps : Nat)
    (plays : session.Plays scene) :
    ∃ moves,
      (session.call.rehearse steps scene).1 = (session.run moves).call.tapped ∧
        (session.run moves).Played (session.call.rehearse steps scene).2 := by
  induction steps generalizing session scene with
  | zero =>
      exact ⟨[], rfl, plays.played⟩
  | succ steps inductionHypothesis =>
      -- One move of the session stands for one step of the rehearsal.
      have goesOn
          {move : Move}
          {after : Scene}
          (plays : (session.step move).Plays after) :
          ∃ moves,
            ((session.step move).call.rehearse steps after).1 =
                (session.run moves).call.tapped ∧
              (session.run moves).Played ((session.step move).call.rehearse steps after).2 := by
        obtain ⟨moves, tapped, played⟩ := inductionHypothesis plays
        exact ⟨move :: moves, tapped, played⟩
      cases asked : session.call.action with
      | finish =>
          rw [Call.rehearse, asked]
          exact ⟨[], rfl, plays.close none fun _ => asked⟩
      | fail error =>
          rw [Call.rehearse, asked]
          exact ⟨[], rfl, plays.close (some error) nofun⟩
      | check =>
          obtain ⟨exchanges, stepped⟩ := session.step_check scene asked
          have after :=
            plays.goOn (session.call.advance scene.checked) exchanges plays.shows
              (List.append_nil _).symm (.nothing _)
          rw [← stepped] at after
          have next := goesOn after
          rw [stepped] at next
          rw [Call.rehearse, asked]
          exact next
      | deliver update =>
          obtain ⟨offered, after⟩ := plays.receive asked
          rw [Call.rehearse, asked]
          simp only
          split
          · -- The consumer leaves with the update that the call still hands over.
            exact ⟨[], rfl, offered⟩
          · obtain ⟨exchanges, stepped⟩ := session.step_deliver asked
            have next := goesOn after
            rw [stepped] at next
            exact next
      | follow action =>
          obtain ⟨memory, stepped, shows⟩ := step_follow asked plays.shows
          obtain ⟨more, noted, tells⟩ :=
            scene.perform_tells session.call.controller.key action
              (scene.perform session.call.controller.key action).1
          have after :=
            plays.goOn
              (session.call.advance (scene.perform session.call.controller.key action).1)
              _ shows noted tells
          rw [← stepped] at after
          have next := goesOn after
          rw [stepped] at next
          rw [Call.rehearse, asked]
          exact next

/-- What holds of all sessions of a call holds of each rehearsal of it. -/
theorem rehearse_of_start
    (call : Call)
    {memory : Memory}
    (steps : Nat)
    (willing : scene.refusing = none)
    (store : scene.store = .memory memory)
    (fresh : scene.notes = []) :
    ∃ moves,
      (call.rehearse steps scene).1 = ((start call memory).run moves).call.tapped ∧
        ((start call memory).run moves).Played (call.rehearse steps scene).2 := by
  have nothing : scene.history = [] := by
    rw [Scene.history, fresh, List.reverse_nil]
  have plays : (start call memory).Plays scene := by
    refine ⟨⟨willing, store, ?_, ?_⟩, ?_⟩
    · rw [Scene.items, nothing, List.filterMap_nil]
    · simp [fresh]
    · rw [nothing]
      exact .nothing _
  exact rehearse_eq_run steps plays

end CallSession

end AgentWire.Client

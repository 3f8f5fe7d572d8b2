import AgentWire.Proofs.Client.CallRehearsal
import AgentWire.Proofs.Client.EnsembleSession

namespace AgentWire.Client

/-!
# Rehearsals of turns are sessions

A rehearsal of a turn over a store in memory that refuses nothing takes a session of the
turn and its calls through some moves.  The consumer receives the updates that the turn
hands over, the functions that are noted are those that it runs, and each request that is
noted is one of its calls.
-/

open Chat (FunctionCall Update)
open Resume (Memory)

namespace EnsembleExchange

/-- The update that the turn hands over. -/
def handed? : EnsembleExchange → Option Update
  | .turn ⟨.deliver update, _⟩ => some update
  | _ => none

/-- The function that the turn runs. -/
def function? : EnsembleExchange → Option FunctionCall
  | .turn ⟨.invoke made, _⟩ => some made
  | _ => none

/-- The request that the call makes. -/
def request? (exchange : EnsembleExchange) : Option Request :=
  exchange.call?.bind Exchange.request?

end EnsembleExchange

/-- Notes tell of what a turn and its calls have asked for. -/
def Recounts (notes : List Note) (history : List EnsembleExchange) : Prop :=
  Tells notes (history.filterMap EnsembleExchange.handed?)
    (history.filterMap EnsembleExchange.function?) (history.filterMap EnsembleExchange.request?)

namespace Recounts

/-- More notes recount what more exchanges are. -/
theorem append
    {notes more : List Note}
    {history exchanges : List EnsembleExchange}
    (recounts : Recounts notes history)
    (others : Recounts more exchanges) :
    Recounts (notes ++ more) (history ++ exchanges) := by
  simp only [Recounts, List.filterMap_append] at recounts others ⊢
  exact Tells.append recounts others

/-- A call hands over nothing by itself and runs no functions. -/
theorem of_calls
    {notes : List Note}
    {exchanges : List Exchange}
    (tells : Tells notes [] [] (exchanges.filterMap Exchange.request?)) :
    Recounts notes (exchanges.map .call) := by
  have updates : (exchanges.map .call).filterMap EnsembleExchange.handed? = [] := by
    rw [List.filterMap_map]
    exact List.filterMap_eq_nil_iff.mpr fun _ _ => rfl
  have functions : (exchanges.map .call).filterMap EnsembleExchange.function? = [] := by
    rw [List.filterMap_map]
    exact List.filterMap_eq_nil_iff.mpr fun _ _ => rfl
  rw [Recounts, updates, functions, List.filterMap_map]
  exact tells

end Recounts

/-- A rehearsal and a session have got equally far. -/
structure EnsembleSession.Plays
    (session : EnsembleSession)
    (ensemble : Ensemble)
    (scene : Scene) :
    Prop where
  turn_eq : session.turn = ensemble.turn
  call_eq : session.call = ensemble.call
  shows : scene.Shows session.memory []
  recounts : Recounts scene.history session.history

/--
What a rehearsal leaves behind is what a session leaves behind.  The consumer may have
left with an update that the turn still hands over.
-/
structure EnsembleSession.Played (session : EnsembleSession) (scene : Scene) : Prop where
  store_eq : scene.store = .memory session.memory
  recounts :
    Recounts scene.history session.history ∨
      ∃ update,
        session.turn.action = .deliver update ∧
          Recounts scene.history (session.history ++ [.turn ⟨.deliver update, .done⟩])
  ended : scene.EndedWell → session.turn.action = .finish

namespace EnsembleSession

variable
  {session : EnsembleSession}
  {ensemble : Ensemble}
  {scene after : Scene}
  {more : List Note}

/-- A rehearsal that stops here leaves behind what its session does. -/
theorem Plays.played (plays : session.Plays ensemble scene) : session.Played scene where
  store_eq := plays.shows.store
  recounts := .inl plays.recounts
  ended := fun ended => absurd ended.1 plays.shows.unended

/-- The end of the turn is noted, and nothing else. -/
theorem Plays.close
    (plays : session.Plays ensemble scene)
    (error : Option ClientError)
    (finishes : error = none → session.turn.action = .finish) :
    session.Played (scene.close error) := by
  obtain ⟨more, noted, tells⟩ := scene.close_tells error
  obtain ⟨store, -, ended⟩ := plays.shows.close error
  have nothing : Recounts more [] := tells
  have all := plays.recounts.append nothing
  rw [← noted, List.append_nil] at all
  exact ⟨store, .inl all, fun well => finishes (ended well)⟩

/-- The turn is answered in the rehearsal and in the session. -/
theorem Plays.answer
    (functions : Functions)
    (plays : session.Plays ensemble scene)
    (shows : after.Shows session.memory [])
    (noted : after.history = scene.history ++ more)
    (given : TurnAnswer)
    (recounts : Recounts more [.turn ⟨session.turn.action, given⟩]) :
    (session.answer functions.canInvoke given).Plays (ensemble.answer functions given) after where
  turn_eq := by
    rw [EnsembleSession.answer, Ensemble.answer, plays.turn_eq]
  call_eq := plays.call_eq
  shows := shows
  recounts := by
    rw [noted]
    exact plays.recounts.append recounts

/-- What neither starts a call nor waits for one is answered by a move of the session. -/
theorem Plays.turned
    {action : TurnAction}
    {given : TurnAnswer}
    (settings : CallSettings)
    (functions : Functions)
    (plays : session.Plays ensemble scene)
    (asks : session.turn.action = action)
    (shows : after.Shows session.memory [])
    (noted : after.history = scene.history ++ more)
    (recounts : Recounts more [.turn ⟨action, given⟩])
    (fits : action.fits given = true)
    (asksNothing : action.isAsk = false)
    (waitsForNothing : action ≠ .pull) :
    (session.step settings functions.canInvoke (.turn given)).Plays
      (ensemble.answer functions given) after := by
  subst asks
  rw [step_turn asksNothing waitsForNothing, if_pos fits]
  exact plays.answer functions shows noted given recounts

/-- A call is started in the rehearsal and in the session. -/
theorem Plays.ask
    (settings : CallSettings)
    (functions : Functions)
    (plays : session.Plays ensemble scene)
    (messages : List Chat.ChatMessage)
    (options : Options)
    (asks : session.turn.action = .ask messages options) :
    (session.ask settings functions.canInvoke messages options).Plays
      (ensemble.ask settings functions messages options) scene := by
  have answered (given : TurnAnswer) :
      (session.answer functions.canInvoke given).Plays (ensemble.answer functions given) scene :=
    plays.answer functions plays.shows (List.append_nil _).symm given (by
      rw [asks]
      exact .nothing _)
  obtain ⟨turn, _, tapped⟩ := ensemble
  obtain rfl : session.turn = turn := plays.turn_eq
  rw [EnsembleSession.ask, Ensemble.ask]
  cases Call.start settings messages options (session.turn.supply.branch session.turn.made) with
  | ok call =>
      obtain ⟨turn_eq, -, shows, recounts⟩ := answered .done
      exact ⟨turn_eq, rfl, shows, recounts⟩
  | error error =>
      obtain ⟨turn_eq, -, shows, recounts⟩ := answered (.failed error)
      exact ⟨turn_eq, rfl, shows, recounts⟩

/-- The open call goes on in the rehearsal and in the session. -/
theorem Plays.goOn
    {memory : Memory}
    (plays : session.Plays ensemble scene)
    (call : Call)
    (exchanges : List Exchange)
    (shows : after.Shows memory [])
    (noted : after.history = scene.history ++ more)
    (tells : Tells more [] [] (exchanges.filterMap Exchange.request?)) :
    EnsembleSession.Plays
      { session with
        call := some call
        memory
        history := session.history ++ exchanges.map .call }
      { ensemble with call := some call } after where
  turn_eq := plays.turn_eq
  call_eq := rfl
  shows := shows
  recounts := by
    rw [noted]
    exact plays.recounts.append (.of_calls tells)

/-- A step of the open call is a move of the session. -/
theorem Plays.pull
    (functions : Functions)
    (plays : session.Plays ensemble scene)
    (waits : session.turn.action = .pull)
    (call : Call) :
    ∃ move,
      (session.pull functions.canInvoke call move).Plays
        (ensemble.pull functions call scene).1 (ensemble.pull functions call scene).2 := by
  have silent (given : TurnAnswer) : Recounts [] [.turn ⟨session.turn.action, given⟩] := by
    rw [waits]
    exact .nothing _
  -- The turn is answered where the call ends or hands something over; else only the call goes on.
  let calls := CallSession.start call session.memory
  cases asked : call.action with
  | finish =>
      refine ⟨.answer .done, ?_⟩
      rw [EnsembleSession.pull, Ensemble.pull, asked]
      exact plays.answer functions plays.shows (List.append_nil _).symm .closed (silent _)
  | fail error =>
      refine ⟨.answer .done, ?_⟩
      rw [EnsembleSession.pull, Ensemble.pull, asked]
      exact plays.answer functions plays.shows (List.append_nil _).symm (.failed error) (silent _)
  | check =>
      refine ⟨.answer scene.checked, ?_⟩
      obtain ⟨exchanges, stepped⟩ := calls.step_check scene asked
      rw [pull_eq (by simp [asked]), Ensemble.pull, asked, stepped]
      exact plays.goOn _ exchanges plays.shows (List.append_nil _).symm (.nothing _)
  | deliver update =>
      refine ⟨.answer .done, ?_⟩
      obtain ⟨exchanges, stepped⟩ := calls.step_deliver asked
      rw [pull_eq (by simp [asked]), Ensemble.pull, asked, stepped]
      have goes :=
        plays.goOn (call.advance .done) exchanges plays.shows (List.append_nil _).symm
          (.nothing _)
      exact goes.answer functions goes.shows (List.append_nil _).symm (.update update) (silent _)
  | follow action =>
      have below : scene.Shows calls.memory [] := plays.shows
      obtain ⟨memory, stepped, shows⟩ := CallSession.step_follow asked below
      obtain ⟨more, noted, tells⟩ :=
        scene.perform_tells call.controller.key action
          (scene.perform call.controller.key action).1
      have moved :
          calls.step (.answer (scene.perform call.controller.key action).1) = _ :=
        stepped
      refine ⟨.answer (scene.perform call.controller.key action).1, ?_⟩
      rw [pull_eq (by simp [asked]), Ensemble.pull, asked, moved]
      exact plays.goOn _ _ shows noted tells

/--
A rehearsal of a turn takes a session through some moves: it leaves the same store
behind, and tells of the same updates, functions and requests.
-/
theorem rehearse_eq_run
    (settings : CallSettings)
    (functions : Functions)
    (steps : Nat)
    (plays : session.Plays ensemble scene) :
    ∃ moves,
      (session.run settings functions.canInvoke moves).Played
        (ensemble.rehearse settings functions steps scene).2 := by
  induction steps generalizing session ensemble scene with
  | zero =>
      exact ⟨[], plays.played⟩
  | succ steps inductionHypothesis =>
      -- One move of the session stands for one step of the rehearsal.
      have goesOn
          {move : EnsembleMove}
          {next : Ensemble}
          {after : Scene}
          (plays : (session.step settings functions.canInvoke move).Plays next after) :
          ∃ moves,
            (session.run settings functions.canInvoke moves).Played
              (next.rehearse settings functions steps after).2 := by
        obtain ⟨moves, played⟩ := inductionHypothesis plays
        exact ⟨move :: moves, played⟩
      obtain ⟨turn, opened, tapped⟩ := ensemble
      obtain rfl : session.turn = turn := plays.turn_eq
      obtain rfl : session.call = opened := plays.call_eq
      cases asks : session.turn.action with
      | finish =>
          rw [Ensemble.rehearse, asks]
          exact ⟨[], plays.close none fun _ => asks⟩
      | fail error =>
          rw [Ensemble.rehearse, asks]
          exact ⟨[], plays.close (some error) (by simp)⟩
      | ask messages options =>
          have after := plays.ask settings functions messages options asks
          have stepped :
              session.step settings functions.canInvoke (.turn .done) =
                session.ask settings functions.canInvoke messages options := by
            simp [step, asks]
          rw [← stepped] at after
          rw [Ensemble.rehearse, asks]
          exact goesOn after
      | pull =>
          rw [Ensemble.rehearse, asks]
          simp only
          split
          · exact ⟨[], plays.played⟩
          · next call opened =>
            obtain ⟨move, after⟩ := plays.pull functions asks call
            have stepped :
                session.step settings functions.canInvoke (.call move) =
                  session.pull functions.canInvoke call move := by
              simp [step, asks, opened]
            rw [← stepped] at after
            exact goesOn after
      | deliver update =>
          have recounts : Recounts [.update update] [.turn ⟨.deliver update, .done⟩] :=
            ⟨rfl, rfl, List.nil_sublist _⟩
          have noted := scene.history_consume (.update update)
          have shows := plays.shows.receive (.update update) rfl (by simp)
          rw [Ensemble.rehearse, asks]
          simp only
          split
          · -- The consumer leaves with the update that the turn still hands over.
            refine ⟨[], shows.store, .inr ⟨update, asks, ?_⟩,
              fun ended => absurd ended.1 shows.unended⟩
            rw [noted]
            exact plays.recounts.append recounts
          · exact goesOn (plays.turned settings functions asks shows noted recounts rfl rfl (by simp))
      | check =>
          have after {given : TurnAnswer} (fits : TurnAction.check.fits given = true) :=
            plays.turned settings functions asks plays.shows (List.append_nil _).symm
              (.nothing _) fits rfl (by simp)
          rw [Ensemble.rehearse, asks]
          simp only
          split
          · exact goesOn (after rfl)
          · exact goesOn (after rfl)
      | invoke call =>
          have shows := plays.shows.note (.invoked call) rfl (by simp)
          have after {given : TurnAnswer} (fits : (TurnAction.invoke call).fits given = true) :=
            plays.turned settings functions asks shows (scene.history_note (.invoked call))
              ⟨rfl, rfl, List.nil_sublist _⟩ fits rfl (by simp)
          rw [Ensemble.rehearse, asks]
          simp only
          cases functions.invoke call with
          | ok value =>
              exact goesOn (after rfl)
          | error error =>
              exact goesOn (after rfl)

/-- What holds of all sessions of a turn holds of each rehearsal of it. -/
theorem rehearse_of_start
    (settings : CallSettings)
    (functions : Functions)
    (limit : Nat)
    (messages : List Chat.ChatMessage)
    (options : Options)
    (supply : IdSupply)
    {memory : Memory}
    (steps : Nat)
    (willing : scene.refusing = none)
    (store : scene.store = .memory memory)
    (fresh : scene.notes = []) :
    ∃ moves,
      ((start limit messages options supply memory).run settings functions.canInvoke moves).Played
        (Ensemble.rehearse settings functions steps
          { turn := .start limit messages options supply } scene).2 := by
  have nothing : scene.history = [] := by
    rw [Scene.history, fresh, List.reverse_nil]
  refine rehearse_eq_run settings functions steps ⟨rfl, rfl, ⟨willing, store, ?_, ?_⟩, ?_⟩
  · rw [Scene.items, nothing, List.filterMap_nil]
  · simp [fresh]
  · rw [nothing]
    exact .nothing _

end EnsembleSession

end AgentWire.Client

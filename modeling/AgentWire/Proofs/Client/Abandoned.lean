import AgentWire.Proofs.Client.EnsembleSession
import AgentWire.Proofs.Client.SentBack

namespace AgentWire.Client

/-!
# Calls of an abandoned run

When a server restarts a run, the machine of the call starts anew and an update tells
that the earlier output was abandoned.  The turn does not look at this update.  It keeps
all that the call has told, so the function calls from before the restart are run and
sent back like those of the run that followed.
-/

open Chat (ChatMessage ContentItem Update)
open Resume (Memory)

/-! ### Updates that differ in their conversation ids -/

namespace Alike

variable {updates others : List Update}

/-- Updates that are alike make the same messages to send back. -/
theorem historyFrom_eq (alike : Alike updates others) :
    historyFrom updates = historyFrom others := by
  rw [← historyFrom_stampedAs none updates, ← historyFrom_stampedAs none others]
  exact congrArg historyFrom alike

/-- Updates that are alike leave the same calls pending. -/
theorem pendingIn_eq (alike : Alike updates others) : pendingIn updates = pendingIn others := by
  rw [← pendingIn_stampedAs none updates, ← pendingIn_stampedAs none others]
  exact congrArg pendingIn alike

end Alike

/-- What a call leads to does not depend on the conversation ids of its updates. -/
theorem Inquiry.LeadsTo.alike
    {canInvoke : String → Bool}
    {limit number : Nat}
    {inquiry : Inquiry}
    {told : List Update}
    {past : List TurnExchange}
    {action : TurnAction}
    (leads : inquiry.LeadsTo canInvoke limit number past action)
    (alike : Alike inquiry.heard told) :
    { inquiry with heard := told }.LeadsTo canInvoke limit number past action := by
  simp only [LeadsTo, GoesOn, pending, next] at leads ⊢
  rwa [← alike.pendingIn_eq, ← alike.historyFrom_eq]

/-- The update that tells of a restart calls no function and answers none. -/
theorem pendingIn_restarted (abandoned followed : List Update) (lastNumber : UInt64) :
    pendingIn (abandoned ++ restartedUpdate lastNumber :: followed) =
      pendingIn (abandoned ++ followed) := by
  simp [pendingIn, callsIn, answeredIn, restartedUpdate, List.filterMap_cons, ContentItem.call?,
    ContentItem.result?]

/-! ### The round of a call -/

/-- The updates that a turn has taken of its call are those that the call has told. -/
theorem updatesIn_of_turns
    {during : List EnsembleExchange}
    {turnId : Option String}
    {heard : List Update}
    (turns : during.filterMap EnsembleExchange.turn? = heard.flatMap (hearing turnId)) :
    updatesIn during = heard := by
  have split :
      updatesIn during =
        (during.filterMap EnsembleExchange.turn?).filterMap fun exchange =>
          (EnsembleExchange.turn exchange).update? := by
    rw [updatesIn, List.filterMap_filterMap]
    congr 1
    funext exchange
    cases exchange <;> rfl
  rw [split, turns]
  clear split turns
  induction heard with
  | nil =>
      rfl
  | cons update rest inductionHypothesis =>
      rw [List.flatMap_cons, List.filterMap_append, inductionHypothesis]
      rfl

/-- A turn that runs functions has started no call since. -/
theorem Serving.callCount_eq
    {inquiry : Inquiry}
    {number : Nat}
    {served : List Errand}
    {past : List TurnExchange}
    {turn : Turn}
    (serving : Serving inquiry number served past turn) :
    callCount past = 0 := by
  have steps := callCount_errandSteps inquiry.turnId served
  have runs := serving.runs
  rw [RunsAt] at runs
  cases stage : turn.stage with
  | asking | finished | checking =>
      rw [stage] at runs
      rw [runs.2, steps]
  | invoking =>
      rw [stage] at runs
      rw [runs.2, callCount_append, steps]
      rfl
  | reporting =>
      rw [stage] at runs
      rw [← runs.2, callCount_append] at steps
      omega
  | failed =>
      rw [stage] at runs
      obtain ⟨call, rest, -, rfl | rfl⟩ := runs
      all_goals
        rw [callCount_append, steps]
        rfl
  | listening | delivering =>
      rw [stage] at runs
      exact runs.elim

/-- The first call that is started behind a round is asked what the round leads to. -/
theorem Behind.next_asked
    {canInvoke : String → Bool}
    {limit number : Nat}
    {inquiry : Inquiry}
    {before after : List TurnExchange}
    {turn : Turn}
    {asked : List ChatMessage}
    {given : Options}
    {answer : TurnAnswer}
    (behind :
      Behind canInvoke limit inquiry number (before ++ ⟨.ask asked given, answer⟩ :: after) turn)
    (first : callCount before = 0) :
    ∃ errands : List Errand,
      asked = inquiry.messages ++ historyFrom inquiry.heard ++ errands.map Errand.message := by
  generalize shape : before ++ ⟨.ask asked given, answer⟩ :: after = past at behind
  cases behind with
  | finished =>
      simp at shape
  | serving goesOn serving =>
      have nothing := serving.callCount_eq
      rw [← shape, callCount_append, callCount_cons_of_ask rfl] at nothing
      omega
  | @asked served =>
      obtain ⟨-, same, -⟩ :=
        ask_unique shape rfl rfl (first ▸ callCount_errandSteps inquiry.turnId served)
      cases same
      exact ⟨served, rfl⟩

namespace EnsembleSession

variable
  {canInvoke : String → Bool}
  {limit : Nat}
  {session : EnsembleSession}
  {past after earlier during : List EnsembleExchange}
  {asked : List ChatMessage}
  {given : Options}

/-- A call that has ended is a round of its turn, of all updates that it has told. -/
theorem behind_ended
    (orderly : session.turns.Orderly canInvoke limit)
    (split : session.history = past ++ .turn ⟨.pull, .closed⟩ :: after)
    (started : Started past asked given earlier during) :
    ∃ turnId,
      Behind canInvoke limit ⟨asked, given, turnId, updatesIn during⟩
        (callCount (earlier.filterMap EnsembleExchange.turn?) + 1)
        (after.filterMap EnsembleExchange.turn?) session.turn := by
  obtain ⟨turns, counted⟩ := started.turns
  have history :
      session.turns.history =
        past.filterMap EnsembleExchange.turn? ++
          ⟨.pull, .closed⟩ :: after.filterMap EnsembleExchange.turn? := by
    rw [EnsembleSession.turns, split, List.filterMap_append,
      List.filterMap_cons_some (EnsembleExchange.turn?_turn _)]
  obtain ⟨first, inquiry, shape, behind⟩ := orderly.rounds _ _ history
  have number :
      callCount first = callCount (earlier.filterMap EnsembleExchange.turn?) := by
    rw [shape, callCount_append, callCount_exchanges] at counted
    omega
  obtain ⟨-, same, heard⟩ := ask_unique (turns.symm.trans shape) rfl rfl number
  rw [number] at behind
  cases inquiry
  cases same
  exact ⟨_, by rwa [updatesIn_of_turns heard]⟩

/-- The request behind a round has the function calls of its messages and of its updates. -/
theorem toolCallIds_of_next
    {settings : CallSettings}
    {number : Nat}
    {inquiry : Inquiry}
    {input : RunInput}
    (tended : session.Tended settings)
    (split : session.history = past ++ .turn ⟨.pull, .closed⟩ :: after)
    (counted : callCount (past.filterMap EnsembleExchange.turn?) = number)
    (behind :
      Behind canInvoke limit inquiry number (after.filterMap EnsembleExchange.turn?)
        session.turn)
    (requested : Requested session.history (number + 1) input) :
    input.messages.flatMap toolCallIds =
      (callsAmong inquiry.messages ++ callsAmong (historyFrom inquiry.heard)).map (·.callId) := by
  obtain ⟨next, given, earlier, later, supply, last, history, numbered, built⟩ :=
    tended.asked_of_requested requested
  have ended :
      (past.filterMap EnsembleExchange.turn? ++ [⟨.pull, .closed⟩]) ++
          after.filterMap EnsembleExchange.turn? =
        earlier ++ ⟨.ask next given, .done⟩ :: later := by
    rw [← history, EnsembleSession.turns, split, List.filterMap_append,
      List.filterMap_cons_some (EnsembleExchange.turn?_turn _), List.append_assoc]
    rfl
  have countedToo :
      callCount earlier =
        callCount (past.filterMap EnsembleExchange.turn? ++ [⟨.pull, .closed⟩]) := by
    have closing : callCount [⟨.pull, .closed⟩] = 0 := rfl
    rw [callCount_append, counted, closing]
    omega
  obtain ⟨between, -, shape, nothing⟩ := ask_behind ended rfl countedToo
  rw [shape] at behind
  obtain ⟨errands, rfl⟩ := behind.next_asked nothing
  have results : callsAmong (errands.map Errand.message) = [] := by
    rw [callsAmong, List.flatMap_map]
    exact List.flatMap_eq_nil_iff.mpr fun _ _ => rfl
  rw [toolCallIds_buildRunInput built, callsAmong_append, callsAmong_append, results,
    List.append_nil]

/--
A call that the server has restarted ends without an error.  Then the turn goes on with
the function calls from before the last restart as with those behind it: all of them
that have no result are pending, it runs them if it can run all, and the next request
has the ids of all that the call has completed, before the restart and behind it.
-/
theorem abandoned_calls_acted_on
    (settings : CallSettings)
    (canInvoke : String → Bool)
    (limit : Nat)
    (messages : List ChatMessage)
    (options : Options)
    (supply : IdSupply)
    (memory : Memory)
    (moves : List EnsembleMove)
    (past after earlier during : List EnsembleExchange)
    (asked : List ChatMessage)
    (given : Options)
    (before : List Delivery)
    (lastNumber : UInt64)
    (kept : List Event) :
    let session :=
      (start limit messages options supply memory).run settings canInvoke moves
    let number := callCount (earlier.filterMap EnsembleExchange.turn?) + 1
    session.history = past ++ .turn ⟨.pull, .closed⟩ :: after →
    Started past asked given earlier during →
    deliveriesIn during = before ++ .restarted lastNumber :: kept.map .event →
    ∃ abandoning following abandoned followed turnId,
      Inbound.listen before = .ok (abandoning, abandoned) ∧
        Inbound.follow {} kept = .ok (following, followed) ∧
        let round : Inquiry :=
          ⟨asked, given, turnId, abandoned ++ restartedUpdate lastNumber :: followed⟩
        round.pending = pendingIn (abandoned ++ followed) ∧
          round.LeadsTo canInvoke (max limit 1) number
            (after.filterMap EnsembleExchange.turn?) session.turn.action ∧
          ∀ input,
            Requested session.history (number + 1) input →
            input.messages.flatMap toolCallIds =
              (callsAmong asked).map (·.callId) ++
                (completedIn before ++ completedIn (kept.map .event)) := by
  intro session number split started delivered
  have tended := tended_run settings canInvoke limit messages options supply memory moves
  have orderly : session.turns.Orderly canInvoke (max limit 1) :=
    turns_keeps (TurnSession.Orderly canInvoke (max limit 1))
      (fun _ _ _ orderly taken => orderly.transition taken)
      (start_poised limit messages options supply memory)
      (TurnSession.orderly_start canInvoke limit messages options supply) moves
  -- The call has ended, so all that follows is what the turn makes of its updates.
  obtain ⟨turnId, behind⟩ := behind_ended orderly split started
  obtain ⟨machine, told, listened, alike⟩ := tended.ended _ _ _ _ _ _ split started
  have heard := listened
  rw [delivered] at heard
  obtain ⟨abandoning, abandoned, followed, before_eq, followed_eq, rfl⟩ :=
    Inbound.listen_restarted heard
  refine ⟨abandoning, machine, abandoned, followed, turnId, before_eq, followed_eq, ?_,
    behind.leadsTo.alike alike, ?_⟩
  · exact pendingIn_restarted abandoned followed lastNumber
  · intro input requested
    obtain ⟨calls, tools⟩ := Inbound.listen_calls listened
    rw [toolCallIds_of_next tended split started.turns.2 behind requested, alike.historyFrom_eq,
      callsAmong_historyFrom tools, List.map_append, calls, delivered, completedIn_append]
    rfl

end EnsembleSession

namespace Restarted

/-- A question. -/
def question : List ChatMessage :=
  [{ role := .user, contents := [.text "Hi"], messageId := some "u1" }]

/-- The agent calls a function. -/
def opened : Event :=
  (EventBody.toolCallStart "c1" "look" none).toEvent.numbered 1

/-- The call is complete. -/
def complete : Event :=
  (EventBody.toolCallEnd "c1").toEvent.numbered 2

/-- The run starts anew. -/
def anew : Event :=
  (EventBody.runStarted "t1" "r1").toEvent.numbered 1

/-- The call hands over a function call, is restarted and ends; the next call connects. -/
def moves : List EnsembleMove :=
  [.turn .done, .call (.answer .done), .call (.answer .done),
   .call (.answer (.frame (.event opened))), .call (.answer .done), .call (.answer .done),
   .call (.answer (.frame (.event complete))), .call (.answer .done), .call (.answer .done),
   .call (.answer .done), .turn .done, .call (.answer (.frame (.event anew))),
   .call (.answer .done), .call (.answer .done), .call (.answer .done), .turn .done,
   .call (.answer .done), .call (.answer .done), .call (.answer .done), .turn .done,
   .call (.answer (.frame .done)), .call (.answer .done), .call (.answer .done), .turn .done,
   .turn (.returned (.json (.string "fine"))), .turn .done, .turn .done, .call (.answer .done),
   .call (.answer .done)]

/-- The turn behind all of this. -/
def session : EnsembleSession :=
  (EnsembleSession.start 2 question {} {} []).run {} (fun _ => true) moves

/-- What was asked for until the call ended. -/
def past : List EnsembleExchange :=
  session.history.take 22

/-- What was asked for since. -/
def after : List EnsembleExchange :=
  session.history.drop 23

/-- The request of the next call. -/
def next : RunInput where
  threadId := ""
  runId := IdSupply.idAt 2 2
  messages :=
    [.spoken .user "u1" "Hi" none,
     .assistant (IdSupply.idAt 2 0) none none (some [⟨"c1", "look", "\x7b\x7d"⟩]),
     .tool (IdSupply.idAt 2 1) "\"fine\"" "c1"]

theorem split : session.history = past ++ .turn ⟨.pull, .closed⟩ :: after := by
  decide +kernel

theorem started : Started past question {} [] past.tail where
  split := by decide +kernel
  last := by decide +kernel

theorem delivered :
    deliveriesIn past.tail =
      [.event opened, .event complete] ++ .restarted 2 :: [anew].map .event := by
  decide +kernel

theorem requested : Requested session.history 2 next :=
  ⟨session.history.take 28, .done, [], by decide +kernel, by decide +kernel⟩

end Restarted

namespace EnsembleSession

open Restarted

/-- A call that was complete before the restart is sent back with its result. -/
theorem abandoned_calls_acted_on_complete :
    session.history = past ++ .turn ⟨.pull, .closed⟩ :: after ∧
      Started past question {} [] past.tail ∧
      deliveriesIn past.tail =
        [.event opened, .event complete] ++ .restarted 2 :: [anew].map .event ∧
      Requested session.history 2 next ∧
      next.messages.flatMap toolCallIds = ["c1"] := by
  obtain ⟨-, -, -, -, -, -, -, -, -, sent⟩ :=
    abandoned_calls_acted_on {} (fun _ => true) 2 question {} {} [] moves past after [] past.tail
      question {} [.event opened, .event complete] 2 [anew] split started delivered
  exact ⟨split, started, delivered, requested, sent next requested⟩

/-- A function may be run that was called before a restart, and not behind it. -/
theorem not_abandoned_calls_dropped :
    ¬∀ (settings : CallSettings) (canInvoke : String → Bool) (limit : Nat)
        (messages : List ChatMessage) (options : Options) (supply : IdSupply)
        (memory : Memory) (moves : List EnsembleMove)
        (past after earlier during : List EnsembleExchange) (asked : List ChatMessage)
        (given : Options) (before : List Delivery) (lastNumber : UInt64) (kept : List Event),
        let session :=
          (start limit messages options supply memory).run settings canInvoke moves
        session.history = past ++ .turn ⟨.pull, .closed⟩ :: after →
        Started past asked given earlier during →
        deliveriesIn during = before ++ .restarted lastNumber :: kept.map .event →
        (∀ served rest call answer,
          after = served ++ .turn ⟨.invoke call, answer⟩ :: rest →
          (∀ exchange ∈ served, exchange.isAsk = false) →
          call.callId ∈ completedIn (kept.map .event)) ∧
          ∀ input,
            Requested session.history
              (callCount (earlier.filterMap EnsembleExchange.turn?) + 2) input →
            ∀ id ∈ input.messages.flatMap toolCallIds,
              id ∈ (callsAmong asked).map (·.callId) ∨
                id ∈ completedIn (kept.map .event) := by
  intro onlyKeptCalls
  obtain ⟨invoked, -⟩ :=
    onlyKeptCalls {} (fun _ => true) 2 question {} {} [] moves past after [] past.tail question {}
      [.event opened, .event complete] 2 [anew] split started delivered
  have among :=
    invoked (after.take 1) (after.drop 2) ⟨"c1", "look", none⟩
      (.returned (.json (.string "fine"))) (by decide +kernel) (by decide +kernel)
  exact absurd among (by decide)

end EnsembleSession

end AgentWire.Client

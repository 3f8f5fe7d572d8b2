import AgentWire.Proofs.Client.Identity
import AgentWire.Proofs.Client.NestedRequest
import Mathlib.Data.List.TakeWhile

namespace AgentWire.Client

/-!
# One conversation id for a turn

Nothing is handed over before the first update of the first call (`Unheard`), and the id on
this update is that of the call.  From then on the turn has an id, and all that it hands
over carries it (`Named`).  The later calls are asked without one.
-/

open Chat (ChatMessage Update)
open Resume (Memory)

/-- The update that is handed over. -/
def TurnAction.update? : TurnAction → Option Update
  | .deliver update => some update
  | _ => none

/-- All updates that the consumer of a turn has received, the present one included. -/
def TurnSession.yielded (session : TurnSession) : List Update :=
  (session.history.map (·.action)).filterMap TurnAction.update? ++
    session.turn.action.update?.toList

namespace TurnTransition

variable
  {canInvoke : String → Bool}
  {turn next : Turn}
  {exchange : TurnExchange}

/-- What a turn hands over carries the id of the turn. -/
theorem conversationId_eq
    {update : Update}
    (taken : TurnTransition canInvoke turn exchange next)
    (offers : next.action.update? = some update) :
    update.conversationId = next.turnId := by
  cases taken with
  | received | returned =>
      cases offers
      rfl
  | closed | reported =>
      simp only [Turn.close, Turn.runNext, Turn.again] at offers
      repeat' split at offers
      all_goals cases offers
  | asked | delivered | checked | refused | broken | cancelled | failed =>
      cases offers

/-- A turn keeps its id. -/
theorem turnId_eq
    {id : String}
    (taken : TurnTransition canInvoke turn exchange next)
    (known : turn.turnId = some id) :
    next.turnId = some id := by
  cases taken <;>
    simp only [Turn.goTo, Turn.receive, Turn.settle, Turn.close, Turn.runNext, Turn.again,
      Turn.report]
  all_goals repeat' split
  all_goals simp_all

/-- What was offered before a transition has been received behind it. -/
theorem yielded_eq
    (taken : TurnTransition canInvoke turn exchange next)
    (history : List TurnExchange) :
    TurnSession.yielded { turn := next, history := history ++ [exchange] } =
      TurnSession.yielded { turn, history } ++ next.action.update?.toList := by
  simp only [TurnSession.yielded, List.map_append, List.map_singleton, List.filterMap_append,
    taken.action_eq]
  cases offers : turn.action.update? <;>
    simp [offers]

end TurnTransition

/-- A turn has an id, and all updates that it has handed over carry it. -/
structure TurnSession.Named (id : String) (session : TurnSession) : Prop where
  turnId_eq : session.turn.turnId = some id
  yielded_eq : ∀ update ∈ session.yielded, update.conversationId = some id

/-- What carries the id of a turn stays, and so does what is handed over next. -/
theorem TurnSession.Named.transition
    {canInvoke : String → Bool}
    {id : String}
    {session : TurnSession}
    {exchange : TurnExchange}
    {next : Turn}
    (named : session.Named id)
    (taken : TurnTransition canInvoke session.turn exchange next) :
    Named id { turn := next, history := session.history ++ [exchange] } where
  turnId_eq := taken.turnId_eq named.turnId_eq
  yielded_eq := by
    intro update handed
    rw [taken.yielded_eq session.history] at handed
    rcases List.mem_append.mp handed with earlier | now
    · exact named.yielded_eq update earlier
    · rw [taken.conversationId_eq (Option.mem_toList.mp now), taken.turnId_eq named.turnId_eq]

/-! ### Later calls are asked without an id -/

/-- The options of a turn behind its first call, and those that it has asked its calls with. -/
structure TurnSession.Anonymous (session : TurnSession) : Prop where
  standing : TurnStanding session.turn session.history
  options : session.turn.made ≠ 0 → session.turn.options.conversationId = none
  asks :
    ∀ before asked given answer after,
      session.history = before ++ ⟨.ask asked given, answer⟩ :: after →
      callCount before ≠ 0 →
      given.conversationId = none

/-- A turn that has made a call more asks for no id. -/
theorem TurnTransition.options_of_made
    {canInvoke : String → Bool}
    {turn next : Turn}
    {exchange : TurnExchange}
    (taken : TurnTransition canInvoke turn exchange next) :
    (next.made = turn.made ∧ next.options = turn.options) ∨
      next.options.conversationId = none := by
  cases taken <;>
    simp only [Turn.goTo, Turn.receive, Turn.settle, Turn.close, Turn.runNext, Turn.again,
      Turn.report]
  all_goals repeat' split
  all_goals simp

/-- No exchange makes a turn ask a later call with an id. -/
theorem TurnSession.Anonymous.transition
    {canInvoke : String → Bool}
    {session : TurnSession}
    {exchange : TurnExchange}
    {next : Turn}
    (anonymous : session.Anonymous)
    (taken : TurnTransition canInvoke session.turn exchange next) :
    Anonymous { turn := next, history := session.history ++ [exchange] } where
  standing := turnStanding_transition anonymous.standing taken
  options := by
    intro later
    rcases taken.options_of_made with ⟨made, same⟩ | none
    · rw [made] at later
      rw [same]
      exact anonymous.options later
    · exact none
  asks := by
    intro before asked given answer after split later
    rcases split_concat split with ⟨rfl, rfl, -⟩ | ⟨rest, -, shape⟩
    · obtain ⟨stage, -, rfl⟩ := Turn.of_asks taken.action_eq.symm
      have standing := anonymous.standing
      rw [TurnStanding, stage] at standing
      exact anonymous.options (standing.1 ▸ later)
    · exact anonymous.asks before asked given answer rest shape later

/-! ### The first call -/

/-- What was asked for before a second call was started. -/
def firstCall : List EnsembleExchange → List EnsembleExchange
  | [] => []
  | asked :: rest => asked :: rest.takeWhile (!·.isAsk)

/-- What was asked for before a second call only grows. -/
theorem firstCall_grows (history more : List EnsembleExchange) :
    firstCall history <+: firstCall (history ++ more) := by
  cases history with
  | nil =>
      exact List.nil_prefix
  | cons asked rest =>
      rw [List.cons_append, firstCall, firstCall, List.takeWhile_append]
      refine (List.prefix_cons_inj asked).mpr ?_
      split
      · next all =>
        rw [(List.takeWhile_prefix _).eq_of_length all]
        exact List.prefix_append _ _
      · exact List.prefix_rfl

/-- While the first call is the last one, all belongs to it. -/
theorem Started.firstCall_eq
    {history during : List EnsembleExchange}
    {messages : List ChatMessage}
    {options : Options}
    (started : Started history messages options [] during) :
    firstCall history = history := by
  rw [started.split, List.nil_append, firstCall, List.takeWhile_eq_self_iff.mpr]
  intro exchange member
  simp [started.last exchange member]

/-- All that was handed over so far was handed over in the first call. -/
theorem Started.deliveriesIn_eq
    {history during : List EnsembleExchange}
    {messages : List ChatMessage}
    {options : Options}
    (started : Started history messages options [] during) :
    deliveriesIn history = deliveriesIn during := by
  rw [started.split, List.nil_append, deliveriesIn,
    List.filterMap_cons_none (EnsembleExchange.call?_turn _), deliveriesIn]

/-- A step of the ensemble keeps all that was asked for before it. -/
theorem EnsembleTransition.history_prefix
    {settings : CallSettings}
    {canInvoke : String → Bool}
    {session next : EnsembleSession}
    (taken : EnsembleTransition settings canInvoke session next) :
    session.history <+: next.history := by
  cases taken with
  | received =>
      rw [List.append_assoc]
      exact List.prefix_append _ _
  | elsewhere =>
      exact List.prefix_rfl
  | asked | refused | followed | closed | broken | turned =>
      exact List.prefix_append _ _

namespace EnsembleSession

open CallSession (Addressed Chosen)

/-- Nothing was handed over yet, and the first call has not handed over anything either. -/
def Unheard
    (settings : CallSettings)
    (limit : Nat)
    (messages : List ChatMessage)
    (options : Options)
    (supply : IdSupply)
    (session : EnsembleSession) :
    Prop :=
  session.turns.yielded = [] ∧
    match session.turn.stage with
    | .asking =>
        session.turn = .start limit messages options supply ∧ session.history = []
    | .listening =>
        session.turn.turnId = options.conversationId.bind nonempty? ∧
          session.turn.received = [] ∧
          ∃ started call during,
            Call.start settings messages options (supply.branch 0) = .ok started ∧
              session.call = some call ∧
              Started session.history messages options [] during ∧
              let below : CallSession :=
                { call, memory := [], history := during.filterMap EnsembleExchange.call? }
              Addressed options.conversationId started.supply.fresh.1 below ∧ below.Attentive
    | .finished | .failed _ => True
    | _ => False

/-- The turn has the id of its first call, and hands over everything under it. -/
def Heard
    (settings : CallSettings)
    (messages : List ChatMessage)
    (options : Options)
    (supply : IdSupply)
    (session : EnsembleSession) :
    Prop :=
  ∃ id started,
    session.turns.Named id ∧
      Call.start settings messages options (supply.branch 0) = .ok started ∧
      Chosen options.conversationId started.supply.fresh.1
        (deliveriesIn (firstCall session.history)) id

variable
  {settings : CallSettings}
  {canInvoke : String → Bool}
  {limit : Nat}
  {messages : List ChatMessage}
  {options : Options}
  {supply : IdSupply}
  {session next : EnsembleSession}

/-- A turn that has its id keeps it and goes on to hand over everything under it. -/
theorem Heard.transition
    (heard : session.Heard settings messages options supply)
    (taken : EnsembleTransition settings canInvoke session next) :
    next.Heard settings messages options supply := by
  obtain ⟨id, started, named, starts, chosen⟩ := heard
  have kept : next.turns.Named id := by
    rcases taken.turns with same | ⟨exchange, turn, turned, shape⟩
    · rwa [same]
    · rw [shape]
      exact named.transition turned
  obtain ⟨more, grown⟩ := taken.history_prefix
  have longer :
      deliveriesIn (firstCall session.history) <+: deliveriesIn (firstCall next.history) := by
    rw [← grown]
    exact ((firstCall_grows session.history more).filterMap _).filterMap _
  exact ⟨id, started, kept, starts, chosen.mono longer⟩

/-- If nothing was handed over before a transition, what is handed over now is the first. -/
theorem first_of_yielded
    (nothing : session.turns.yielded = [])
    (taken : EnsembleTransition settings canInvoke session next)
    (update : Update)
    (handed : update ∈ next.turns.yielded) :
    next.turn.action.update? = some update ∧ update.conversationId = next.turn.turnId := by
  rcases taken.turns with same | ⟨exchange, turn, turned, shape⟩
  · rw [same, nothing] at handed
    cases handed
  · obtain rfl : next.turn = turn := congrArg TurnSession.turn shape
    have before : TurnSession.yielded ⟨session.turn, session.turns.history⟩ = [] := nothing
    rw [shape, turned.yielded_eq, before, List.nil_append] at handed
    have offers := Option.mem_toList.mp handed
    exact ⟨offers, turned.conversationId_eq offers⟩

/-- The first update gives the turn its id, if no other one was given. -/
theorem turnId_receive
    {turn : Turn}
    {update : Update}
    {id : String}
    (handed : update.conversationId = some id)
    (filled : id ≠ "")
    (agrees : ∀ given, turn.turnId = some given → given = id) :
    (turn.receive update).turnId = some id := by
  cases known : turn.turnId with
  | some given =>
      obtain rfl := agrees given known
      simp [Turn.receive, Turn.settle, known]
  | none =>
      simp [Turn.receive, Turn.settle, known, IdSupply.orFresh, handed, filled]

/-- The first update that a call hands over carries the id that its items tell. -/
theorem chosen_of_received
    {given : Option String}
    {made : String}
    {call after : Call}
    {memory kept : Memory}
    {during : List EnsembleExchange}
    {exchange? : Option Exchange}
    {update : Update}
    (addressed :
      Addressed given made
        { call, memory, history := during.filterMap EnsembleExchange.call? })
    (taken : CallTransition call memory exchange? (some update) after kept) :
    ∃ id,
      Chosen given made (deliveriesIn (during ++ exchange?.toList.map .call)) id ∧
        update.conversationId = some id := by
  cases taken with
  | @delivered _ item stage asked =>
      have offers : call.offered? = some update := by
        simp [Call.offered?, stage]
      have handed : update ∈ [] ++ call.offered?.toList := by
        simp [offers]
      obtain ⟨id, chosen, carries⟩ := addressed.chosen_of_handed handed
      refine ⟨id, ?_, carries⟩
      have items :
          deliveriesIn (during ++ [.call ⟨.deliver item, .done⟩]) =
            deliveriesIn during ++ [item] := by
        rw [deliveriesIn, List.filterMap_append, List.filterMap_append]
        rfl
      rw [Option.toList_some, List.map_singleton, items]
      simpa [CallSession.stream, Session.yielded, Session.deliveries, Session.offered?, asked,
        deliveriesIn] using chosen

/-- A turn that has handed over nothing takes its id from the first delivery of its first call. -/
theorem Unheard.transition
    (unheard : session.Unheard settings limit messages options supply)
    (taken : EnsembleTransition settings canInvoke session next) :
    next.Unheard settings limit messages options supply ∨
      next.Heard settings messages options supply := by
  obtain ⟨nothing, standing⟩ := unheard
  have silent (offers : next.turn.action.update? = none) : next.turns.yielded = [] := by
    refine List.eq_nil_iff_forall_not_mem.mpr fun update handed => ?_
    cases offers.symm.trans (first_of_yielded nothing taken update handed).1
  have handedOver := first_of_yielded nothing taken
  cases taken with
  | @asked call stage started =>
      rw [stage] at standing
      obtain ⟨begins, unasked⟩ := standing
      rw [begins] at started
      refine .inl ⟨silent rfl, by rw [begins]; rfl, by rw [begins]; rfl, call, call, [], started,
        rfl, ?_, CallSession.addressed_start started _,
        CallSession.attentive_run (CallSession.fresh_of_start started).1 _ []⟩
      rw [begins, unasked]
      exact .of_asked []
  | refused stage =>
      exact .inl ⟨silent rfl, trivial⟩
  | @followed call after exchange? memory stage opened taken =>
      rw [stage] at standing
      obtain ⟨unnamed, empty, started, _, during, starts, same, asked, addressed, attentive⟩ :=
        standing
      cases opened.symm.trans same
      -- The call goes on without telling anything, so only its own exchanges grow.
      have calls :
          (during ++ exchange?.toList.map EnsembleExchange.call).filterMap
              EnsembleExchange.call? =
            during.filterMap EnsembleExchange.call? ++ exchange?.toList := by
        rw [List.filterMap_append, EnsembleExchange.calls_calls]
      refine .inl ⟨silent (by simp [Turn.action, stage, TurnAction.update?]), ?_⟩
      rw [stage]
      refine ⟨unnamed, empty, started, after, _, starts, rfl, asked.append ?_, ?_⟩
      · simp [EnsembleExchange.isAsk]
      · have before :
            CallSession.Attentive
              { call
                memory := session.memory
                history := during.filterMap EnsembleExchange.call? } :=
          attentive
        rw [calls]
        exact ⟨((addressed.elsewhere session.memory).transition before taken).elsewhere [],
          before.transition taken⟩
  | @received call after exchange? update memory stage opened taken =>
      rw [stage] at standing
      obtain ⟨unnamed, empty, started, _, during, starts, same, asked, addressed, -⟩ := standing
      cases opened.symm.trans same
      obtain ⟨id, chosen, carries⟩ :=
        chosen_of_received (addressed.elsewhere session.memory) taken
      have filled : id ≠ "" :=
        chosen.eq_idOf ▸ idOf_ne_empty (IdSupply.fresh_ne_empty _) _ _
      -- An id that the turn was given is the one that the call was given too.
      have agrees (given : String) (known : session.turn.turnId = some given) : given = id := by
        rw [chosen.eq_idOf, idOf, ← unnamed, known]
        rfl
      have named := turnId_receive carries filled agrees
      have first :
          Started (session.history ++ exchange?.toList.map .call ++ [.told update]) messages
            options [] (during ++ exchange?.toList.map .call ++ [.told update]) :=
        (asked.append (by simp [EnsembleExchange.isAsk])).append
          (by simp [EnsembleExchange.told, EnsembleExchange.isAsk, TurnAction.isAsk])
      refine .inr ⟨id, started, ⟨named, ?_⟩, starts, ?_⟩
      · intro update handed
        rw [(handedOver update handed).2]
        exact named
      · rw [first.firstCall_eq, first.deliveriesIn_eq]
        exact chosen.mono (((List.prefix_append _ _).filterMap _).filterMap _)
  | elsewhere opened =>
      exact .inl ⟨nothing, standing⟩
  | closed stage opened finishes =>
      rw [stage] at standing
      obtain ⟨-, empty, -⟩ := standing
      -- A call that has told nothing has made no function call, so the turn is over.
      have ended : session.turn.close canInvoke = session.turn.goTo .finished := by
        simp [Turn.close, empty, pendingIn, callsIn]
      rw [ended] at silent ⊢
      exact .inl ⟨silent rfl, trivial⟩
  | broken stage opened fails =>
      exact .inl ⟨silent rfl, trivial⟩
  | turned taken asksNothing waitsForNothing =>
      cases taken with
      | asked stage | refused stage => cases asksNothing
      | received stage | closed stage | broken stage => exact absurd rfl waitsForNothing
      | delivered stage | checked stage | returned stage | reported stage | cancelled stage
      | failed stage =>
          rw [stage] at standing
          exact standing.elim

/--
However the ensemble is driven, it has handed over nothing or it has the id of its first
call.
-/
theorem heard_run
    (settings : CallSettings)
    (canInvoke : String → Bool)
    (limit : Nat)
    (messages : List ChatMessage)
    (options : Options)
    (supply : IdSupply)
    (memory : Memory)
    (moves : List EnsembleMove) :
    let session := (start limit messages options supply memory).run settings canInvoke moves
    session.Unheard settings limit messages options supply ∨
      session.Heard settings messages options supply := by
  refine run_keeps
    (fun session =>
      session.Unheard settings limit messages options supply ∨
        session.Heard settings messages options supply)
    ?_ (start_poised limit messages options supply memory) (.inl ⟨rfl, rfl, rfl⟩) moves
  rintro session next (unheard | heard) taken
  · exact unheard.transition taken
  · exact .inr (heard.transition taken)

/-- However the ensemble is driven, later calls of its turn are asked without an id. -/
theorem anonymous_run
    (settings : CallSettings)
    (canInvoke : String → Bool)
    (limit : Nat)
    (messages : List ChatMessage)
    (options : Options)
    (supply : IdSupply)
    (memory : Memory)
    (moves : List EnsembleMove) :
    ((start limit messages options supply memory).run settings canInvoke moves).turns.Anonymous := by
  refine turns_keeps TurnSession.Anonymous
    (fun session exchange turn anonymous taken => anonymous.transition taken)
    (start_poised limit messages options supply memory) ⟨⟨rfl, rfl⟩, ?_, ?_⟩ moves
  · intro later
    exact absurd rfl later
  · intro before asked given answer after split
    simp [start, turns] at split

/--
Whatever servers and functions do, all updates of a call carry one id that is not empty: the
caller's, or else the first one reported by the events up to the one behind the first update,
or else a made one.  All updates of a turn carry the id of its first call by this rule, and
its later calls make their requests without a thread.
-/
theorem one_conversation_id
    (settings : CallSettings)
    (canInvoke : String → Bool)
    (limit : Nat)
    (messages : List ChatMessage)
    (options : Options)
    (supply : IdSupply)
    (memory : Memory) :
    (∀ call moves,
      Call.start settings messages options supply = .ok call →
      let session := (CallSession.start call memory).run moves
      let id :=
        idOf options.conversationId (Inbound.opening {} session.stream.yielded)
          call.supply.fresh.1
      id ≠ "" ∧
        ∀ update ∈ session.updates ++ session.call.offered?.toList,
          update.conversationId = some id) ∧
    ∀ moves,
      let session := (start limit messages options supply memory).run settings canInvoke moves
      (∀ update ∈ session.turns.yielded,
        ∃ call,
          Call.start settings messages options (supply.branch 0) = .ok call ∧
            let id :=
              idOf options.conversationId
                (Inbound.opening {} (deliveriesIn (firstCall session.history)))
                call.supply.fresh.1
            id ≠ "" ∧ update.conversationId = some id) ∧
      ∀ number nested,
        Requested session.history number nested →
        1 < number →
        nested.threadId = "" := by
  refine ⟨?_, ?_⟩
  · intro call moves started session id
    have addressed := CallSession.addressed_run started memory moves
    refine ⟨idOf_ne_empty (IdSupply.fresh_ne_empty _) _ _, ?_⟩
    intro update handed
    obtain ⟨chosen, known, carries⟩ := addressed.chosen_of_handed handed
    rw [carries, known.eq_idOf]
  · intro moves session
    refine ⟨?_, ?_⟩
    · intro update handed
      rcases heard_run settings canInvoke limit messages options supply memory moves with
        ⟨nothing, -⟩ | ⟨id, call, named, started, chosen⟩
      · rw [nothing] at handed
        cases handed
      · refine ⟨call, started, idOf_ne_empty (IdSupply.fresh_ne_empty _) _ _, ?_⟩
        rw [named.yielded_eq update handed, chosen.eq_idOf]
    · intro number nested requested later
      have tended := tended_run settings canInvoke limit messages options supply memory moves
      obtain ⟨asked, given, earlier, rest, drawn, last, split, rfl, built⟩ :=
        tended.asked_of_requested requested
      -- A nested request is built from the options of a later call, which name no conversation.
      have anonymous :=
        anonymous_run settings canInvoke limit messages options supply memory moves
      rw [threadId_buildRunInput built,
        anonymous.asks earlier asked given .done rest split (by omega)]
      rfl

end EnsembleSession

namespace NamedRun

/-- A question. -/
def question : List ChatMessage :=
  [{ role := .user, contents := [.text "Hi"], messageId := some "u1" }]

/-- The server names the thread. -/
def started : Event :=
  (EventBody.runStarted "thread" "run").toEvent

/-- A call connects and is about to hand over that a run has started. -/
def begun : List Move :=
  [.answer .done, .answer .done, .answer (.frame (.event started)), .answer .done,
   .answer .done]

/-- Behind the start of the run a function is called and run, and the next call connects. -/
def moves : List EnsembleMove :=
  .turn .done :: begun.map .call ++
    [.call (.answer .done), .turn .done, .call (.answer (.frame (.event StateLast.opened))),
     .call (.answer .done), .call (.answer .done),
     .call (.answer (.frame (.event StateLast.complete))), .call (.answer .done),
     .call (.answer .done), .call (.answer .done), .turn .done,
     .call (.answer (.frame .done)), .call (.answer .done), .call (.answer .done), .turn .done,
     .turn (.returned (.json (.string "fine"))), .turn .done, .turn .done,
     .call (.answer .done), .call (.answer .done)]

/-- The request of the next call. -/
def nested : RunInput where
  threadId := ""
  runId := IdSupply.idAt 2 2
  messages :=
    [.spoken .user "u1" "Hi" none,
     .assistant (IdSupply.idAt 2 0) none none (some [⟨"c1", "look", "\x7b\x7d"⟩]),
     .tool (IdSupply.idAt 2 1) "\"fine\"" "c1"]

end NamedRun

namespace EnsembleSession

open NamedRun

/-- A turn whose caller gives no id, with one function that is run and a nested request. -/
theorem one_conversation_id_reported :
    let session := (start 2 question {} {} []).run {} (fun _ => true) moves
    (∃ call,
      Call.start {} question {} {} = .ok call ∧
        ∃ update,
          ((CallSession.start call []).run begun).call.offered? = some update ∧
            update.conversationId = some "thread") ∧
      session.turns.yielded.length = 3 ∧
      (∀ update ∈ session.turns.yielded, update.conversationId = some "thread") ∧
      Requested session.history 2 nested ∧
      nested.threadId = "" := by
  intro session
  obtain ⟨ofCall, ofTurn⟩ := one_conversation_id {} (fun _ => true) 2 question {} {} []
  obtain ⟨same, unnamed⟩ := ofTurn moves
  have requested : Requested session.history 2 nested :=
    ⟨session.history.take 24, .done, [], by decide +kernel, by decide +kernel⟩
  refine ⟨⟨_, rfl, _, rfl, ?_⟩, by decide +kernel, ?_, requested,
    unnamed 2 nested requested (by decide)⟩
  · obtain ⟨-, carries⟩ := ofCall _ begun rfl
    exact carries _ (by decide +kernel)
  · intro update handed
    obtain ⟨call, -, -, carries⟩ := same update handed
    have opening :
        Inbound.opening {} (deliveriesIn (firstCall session.history)) = [started] := by
      decide +kernel
    rw [carries]
    change some (idOf none (Inbound.opening {} (deliveriesIn (firstCall session.history))) _) = _
    rw [opening]
    rfl

end EnsembleSession

end AgentWire.Client

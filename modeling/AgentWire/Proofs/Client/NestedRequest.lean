import AgentWire.Proofs.Client.EnsembleSession
import AgentWire.Proofs.Client.Outbound

namespace AgentWire.Client

/-!
# What the later requests of a turn repeat

A turn asks each later call with the messages that it was given, what was received, and
the results of functions, in this order.  So each later request repeats the first one,
but for made ids, and adds to its messages.  The state is an exception: only a last
message can carry it, and the last message of a later call is the result of a function.
A state message that the caller gave last becomes a message of the conversation there.
-/

open Chat (ChatMessage FunctionCall FunctionResult)
open Resume (Memory)

/-- The last message is the result of a function. -/
def EndsWithResult (messages : List ChatMessage) : Prop :=
  ∃ (earlier : List ChatMessage) (result : FunctionResult),
    messages = earlier ++ [{ role := .tool, contents := [.result result] }]

namespace Turn

/-- A turn asks on its history and options, and only before a call. -/
theorem of_asks
    {turn : Turn}
    {messages : List ChatMessage}
    {options : Options}
    (asks : turn.action = .ask messages options) :
    turn.stage = .asking ∧ messages = turn.history ∧ options = turn.options := by
  cases stage : turn.stage <;>
    simp_all [action]

/-- A turn asks again once no functions are left to run. -/
theorem asking_runNext
    {turn : Turn}
    {calls : List FunctionCall}
    (asks : (turn.runNext calls).stage = .asking) :
    calls = [] ∧
      (turn.runNext calls).made = turn.made + 1 ∧
      (turn.runNext calls).history = turn.history := by
  cases calls with
  | cons call rest =>
      cases asks
  | nil =>
      simp only [runNext, again] at asks ⊢
      split at asks
      · next allowed => simp [allowed]
      · cases asks

/-- A call that ends is followed by a function, or by nothing. -/
theorem not_asking_close (turn : Turn) (canInvoke : String → Bool) :
    (turn.close canInvoke).stage ≠ .asking := by
  intro asks
  simp only [close] at asks
  split at asks
  · cases asks
  · next goesOn =>
    obtain ⟨nothing, -⟩ := asking_runNext asks
    simp [nothing] at goesOn

end Turn

namespace TurnTransition

variable
  {canInvoke : String → Bool}
  {turn next : Turn}
  {exchange : TurnExchange}

/-- A turn only adds to its history, and changes nothing but the conversation id it asks for. -/
theorem grows (taken : TurnTransition canInvoke turn exchange next) :
    turn.history <+: next.history ∧
      ∀ id,
        { next.options with conversationId := id } =
          { turn.options with conversationId := id } := by
  cases taken <;>
    simp only [Turn.goTo, Turn.receive, Turn.settle, Turn.close, Turn.runNext, Turn.again,
      Turn.report]
  all_goals repeat' split
  all_goals simp

/-- A turn asks again behind the result of a function that it has handed over. -/
theorem asking_next
    (taken : TurnTransition canInvoke turn exchange next)
    (asks : next.stage = .asking) :
    next.made = turn.made + 1 ∧
      next.history = turn.history ∧
      ∃ update, turn.stage = .reporting update [] := by
  cases taken with
  | @reported update rest stage =>
      obtain ⟨rfl, made, history⟩ := Turn.asking_runNext asks
      exact ⟨made, history, update, stage⟩
  | closed =>
      exact absurd asks (Turn.not_asking_close _ _)
  | asked | received | delivered | checked | returned | refused | broken | cancelled | failed =>
      cases asks

/-- What a turn hands over behind a function is the last message of its history. -/
theorem reporting_next
    {update : Chat.Update}
    {rest : List FunctionCall}
    (taken : TurnTransition canInvoke turn exchange next)
    (reports : next.stage = .reporting update rest) :
    EndsWithResult next.history := by
  cases taken with
  | returned =>
      exact ⟨_, _, rfl⟩
  | closed | reported =>
      simp only [Turn.close, Turn.runNext, Turn.again] at reports
      repeat' split at reports
      all_goals cases reports
  | asked | received | delivered | checked | refused | broken | cancelled | failed =>
      cases reports

end TurnTransition

/-- What every request of a turn has in common with what the turn was given. -/
structure Repeats
    (messages : List ChatMessage)
    (options : Options)
    (asked : List ChatMessage)
    (given : Options) :
    Prop where
  messages_prefix : messages <+: asked
  options_eq :
    { given with conversationId := none } = { options with conversationId := none }

namespace TurnSession

variable
  {canInvoke : String → Bool}
  {messages : List ChatMessage}
  {options : Options}
  {session : TurnSession}

/-- What a turn has asked its calls, and what it is about to ask. -/
structure Extending
    (messages : List ChatMessage)
    (options : Options)
    (session : TurnSession) :
    Prop where
  standing : TurnStanding session.turn session.history
  repeats : Repeats messages options session.turn.history session.turn.options
  initial :
    session.turn.stage = .asking →
    session.turn.made = 0 →
    session.turn.history = messages
  nested :
    session.turn.stage = .asking →
    session.turn.made ≠ 0 →
    EndsWithResult session.turn.history
  reporting :
    ∀ update rest,
      session.turn.stage = .reporting update rest →
      EndsWithResult session.turn.history
  asks :
    ∀ before asked given answer after,
      session.history = before ++ ⟨.ask asked given, answer⟩ :: after →
      Repeats messages options asked given ∧
        (callCount before = 0 → asked = messages) ∧
        (callCount before ≠ 0 → EndsWithResult asked)

/-- The first call is on what the turn was given. -/
theorem extending_start
    (limit : Nat)
    (messages : List ChatMessage)
    (options : Options)
    (supply : IdSupply) :
    Extending messages options (start limit messages options supply) where
  standing := ⟨rfl, rfl⟩
  repeats := ⟨List.prefix_rfl, rfl⟩
  initial := fun _ _ => rfl
  nested := fun _ later => absurd rfl later
  reporting := by simp [start, Turn.start]
  asks := by simp [start]

/-- A transition keeps the history of a turn in front of what is asked. -/
theorem Extending.transition
    {exchange : TurnExchange}
    {next : Turn}
    (extending : Extending messages options session)
    (taken : TurnTransition canInvoke session.turn exchange next) :
    Extending messages options { turn := next, history := session.history ++ [exchange] } where
  standing := turnStanding_transition extending.standing taken
  repeats := by
    obtain ⟨grown, same⟩ := taken.grows
    exact ⟨extending.repeats.messages_prefix.trans grown,
      (same none).trans extending.repeats.options_eq⟩
  initial := by
    intro asks first
    obtain ⟨made, -, -⟩ := taken.asking_next asks
    exact absurd (made.symm.trans first) (Nat.succ_ne_zero _)
  nested := by
    intro asks later
    obtain ⟨-, history, update, reports⟩ := taken.asking_next asks
    show EndsWithResult next.history
    rw [history]
    exact extending.reporting update [] reports
  reporting := by
    intro update rest reports
    exact taken.reporting_next reports
  asks := by
    intro before asked given answer after split
    rcases split_concat split with ⟨rfl, rfl, -⟩ | ⟨rest, -, shape⟩
    · obtain ⟨stage, rfl, rfl⟩ := Turn.of_asks taken.action_eq.symm
      have counted := extending.standing
      rw [TurnStanding, stage] at counted
      rw [counted.1]
      exact ⟨extending.repeats, extending.initial stage, extending.nested stage⟩
    · exact extending.asks before asked given answer rest shape

end TurnSession

namespace EnsembleSession

variable
  {settings : CallSettings}
  {canInvoke : String → Bool}
  {messages : List ChatMessage}
  {options : Options}
  {session : EnsembleSession}

/-- What a call with a number was asked, if it requests a run. -/
theorem asked_of_requested
    {number : Nat}
    {input : RunInput}
    (tended : session.Tended settings)
    (extending : session.turns.Extending messages options)
    (requested : Requested session.history number input) :
    ∃ asked given supply last,
      buildRunInput asked given settings.registry supply = .ok (input, last) ∧
        Repeats messages options asked given ∧
        (number = 1 → asked = messages) ∧
        (number ≠ 1 → EndsWithResult asked) := by
  obtain ⟨asked, given, earlier, later, supply, last, split, rfl, built⟩ :=
    tended.asked_of_requested requested
  obtain ⟨repeats, initial, nested⟩ := extending.asks earlier asked given .done later split
  refine ⟨asked, given, supply, last, built, repeats, ?_, ?_⟩
  · intro first
    exact initial (by omega)
  · intro later
    exact nested (by omega)

/-- Whatever happens, what a turn asks extends what it was given. -/
theorem extending_run
    (settings : CallSettings)
    (canInvoke : String → Bool)
    (limit : Nat)
    (messages : List ChatMessage)
    (options : Options)
    (supply : IdSupply)
    (memory : Memory)
    (moves : List EnsembleMove) :
    ((start limit messages options supply memory).run settings canInvoke moves).turns.Extending
      messages options := by
  refine turns_keeps (fun session => session.Extending messages options) ?_
    (start_poised limit messages options supply memory) ?_ moves
  · intro session exchange turn extending taken
    exact extending.transition taken
  · exact TurnSession.extending_start limit messages options supply

/--
Whatever calls hand over and functions return, each later request of a turn has the
context, the tools and the forwarded properties of the first one, and its messages start
with those of the first one but for the ids that were made.  It has no state.  Where the
first request has one, the message that carried it is the next message of the later
request.
-/
theorem nested_requests_extend_first
    (settings : CallSettings)
    (canInvoke : String → Bool)
    (limit : Nat)
    (messages : List ChatMessage)
    (options : Options)
    (supply : IdSupply)
    (memory : Memory)
    (moves : List EnsembleMove)
    (first nested : RunInput)
    (number : Nat) :
    let session :=
      (start limit messages options supply memory).run settings canInvoke moves
    Requested session.history 1 first →
    Requested session.history number nested →
    1 < number →
    nested.context = first.context ∧
      nested.tools = first.tools ∧
      nested.forwardedProperties = first.forwardedProperties ∧
      nested.state = none ∧
      ∃ (conversation : List ChatMessage) (repeated added : List Message),
        nested.messages = repeated ++ added ∧
          repeated.length = conversation.length ∧
          first.messages.length = conversation.length ∧
          withoutMadeIds conversation repeated = withoutMadeIds conversation first.messages ∧
          (first.state = none → conversation = messages) ∧
          ∀ document,
            first.state = some document →
            ∃ carrier bytes turned more,
              messages = conversation ++ [carrier] ∧
                stateBytes? carrier = some bytes ∧
                Chat.decodeSnapshot bytes = .ok document ∧
                toMessage settings.registry turned.id carrier = .ok turned ∧
                added = turned :: more := by
  intro session begins goesOn later
  have tended := tended_run settings canInvoke limit messages options supply memory moves
  have extending := extending_run settings canInvoke limit messages options supply memory moves
  obtain ⟨asked, given, firstSupply, firstLast, built, repeats, initial, -⟩ :=
    asked_of_requested tended extending begins
  obtain rfl := initial rfl
  obtain ⟨askedLater, givenLater, laterSupply, laterLast, builtLater, repeatsLater, -, nests⟩ :=
    asked_of_requested tended extending goesOn
  obtain ⟨more, rfl⟩ := repeatsLater.messages_prefix
  -- The messages of a later call end with a result, so no state is taken off their end.
  have stateless : splitState (asked ++ more) = .ok (none, asked ++ more) := by
    obtain ⟨earlier, result, shape⟩ := nests (Nat.ne_of_gt later)
    rw [shape]
    exact splitState_concat rfl earlier
  obtain ⟨-, sameTools, sameContext, sameProperties⟩ :=
    Options.mk.inj (repeatsLater.options_eq.trans repeats.options_eq.symm)
  obtain ⟨-, -, -, -, context, tools, properties⟩ := buildRunInput_eq_ok built
  obtain ⟨-, -, -, -, contextLater, toolsLater, propertiesLater⟩ := buildRunInput_eq_ok builtLater
  refine ⟨?_, ?_, ?_, buildRunInput_append built stateless builtLater⟩
  · rw [contextLater, context, sameContext]
  · rw [toolsLater, tools, sameTools]
  · rw [propertiesLater, properties, sameProperties]

end EnsembleSession

namespace StateLast

/-- A question, and behind it the state. -/
def conversation : List ChatMessage :=
  [{ role := .user, contents := [.text "Hi"], messageId := some "u1" },
   { stateMessage (.object [("step", .string "one")]) with messageId := some "s1" }]

/-- The agent calls a function. -/
def opened : Event :=
  (EventBody.toolCallStart "c1" "look" none).toEvent

/-- The call is complete. -/
def complete : Event :=
  (EventBody.toolCallEnd "c1").toEvent

/-- The first call hands over a function call and ends, the function is run, and the next
call connects. -/
def moves : List EnsembleMove :=
  [.turn .done, .call (.answer .done), .call (.answer .done),
   .call (.answer (.frame (.event opened))), .call (.answer .done), .call (.answer .done),
   .call (.answer (.frame (.event complete))), .call (.answer .done), .call (.answer .done),
   .call (.answer .done), .turn .done, .call (.answer (.frame .done)), .call (.answer .done),
   .call (.answer .done), .turn .done, .turn (.returned (.json (.string "fine"))), .turn .done,
   .turn .done, .call (.answer .done), .call (.answer .done)]

/-- What was asked for. -/
def log : List EnsembleExchange :=
  ((EnsembleSession.start 2 conversation {} {} []).run {} (fun _ => true) moves).history

/-- The first request: the state is request state. -/
def first : RunInput where
  threadId := ""
  runId := IdSupply.idAt 1 0
  messages := [.spoken .user "u1" "Hi" none]
  state := some (.object [("step", .string "one")])

/-- The next request: the state is a message. -/
def nested : RunInput where
  threadId := ""
  runId := IdSupply.idAt 2 2
  messages :=
    [.spoken .user "u1" "Hi" none, .spoken .user "s1" "\x7b\"step\":\"one\"\x7d" none,
     .assistant (IdSupply.idAt 2 0) none none (some [⟨"c1", "look", "\x7b\x7d"⟩]),
     .tool (IdSupply.idAt 2 1) "\"fine\"" "c1"]

theorem requested_first : Requested log 1 first :=
  ⟨log.take 2, .done, log.drop 3, by decide +kernel, by decide +kernel⟩

theorem requested_nested : Requested log 2 nested :=
  ⟨log.take 19, .done, [], by decide +kernel, by decide +kernel⟩

end StateLast

namespace EnsembleSession

open StateLast

/-- A state that the first request carries is a message of the next one. -/
theorem nested_requests_extend_first_stateful :
    Requested log 1 first ∧
      Requested log 2 nested ∧
      nested.state = none ∧
      ∃ (repeated added : List Message) (carrier : ChatMessage) (turned : Message)
        (more : List Message),
        nested.messages = repeated ++ added ∧
          repeated.length = first.messages.length ∧
          conversation.getLast? = some carrier ∧
          toMessage ({} : CallSettings).registry turned.id carrier = .ok turned ∧
          added = turned :: more := by
  obtain ⟨-, -, -, stateless, spoken, repeated, added, split, length, lengthFirst, -, -, state⟩ :=
    nested_requests_extend_first {} (fun _ => true) 2 conversation {} {} [] moves first nested 2
      requested_first requested_nested (by decide)
  obtain ⟨carrier, bytes, turned, more, shape, -, -, turns, next⟩ := state _ rfl
  exact ⟨requested_first, requested_nested, stateless, repeated, added, carrier, turned, more,
    split, length.trans lengthFirst.symm, by simp [shape], turns, next⟩

/-- The state of the first request may be missing in the next one. -/
theorem not_state_in_nested_requests :
    ¬∀ (settings : CallSettings) (canInvoke : String → Bool) (limit : Nat)
        (messages : List ChatMessage) (options : Options) (supply : IdSupply)
        (memory : Memory) (moves : List EnsembleMove) (first nested : RunInput) (number : Nat),
        let session :=
          (start limit messages options supply memory).run settings canInvoke moves
        (∀ value, .turn (.returned value) ∈ moves → ∃ document, value = .json document) →
        Requested session.history 1 first →
        Requested session.history number nested →
        1 < number →
        nested.state = first.state ∧
          nested.context = first.context ∧
          nested.tools = first.tools ∧
          nested.forwardedProperties = first.forwardedProperties ∧
          ∃ repeated added,
            nested.messages = repeated ++ added ∧
              repeated.map (readdressed "") = first.messages.map (readdressed "") := by
  intro stateSentAgain
  have documents :
      ∀ value, .turn (.returned value) ∈ moves → ∃ document, value = .json document := by
    simp [moves]
  have same :=
    (stateSentAgain {} (fun _ => true) 2 conversation {} {} [] moves first nested 2 documents
      requested_first requested_nested (by decide)).1
  cases same

end EnsembleSession

end AgentWire.Client

import AgentWire.Client.Outbound
import AgentWire.Proofs.Chat.Registry

namespace AgentWire.Client

/-!
# What a request is made of

Each chat message becomes a wire message of its own, and all but the id of it is told
by the chat message alone.  The ids that are made for messages without one differ from
request to request; everything else that requests on the same messages hold is the
same (`withoutMadeIds`).
-/

open Chat (ChatMessage Registry)

/-- A wire message under another id. -/
def readdressed (id : String) : Message → Message
  | .spoken speaker _ content name => .spoken speaker id content name
  | .assistant _ content name toolCalls => .assistant id content name toolCalls
  | .tool _ content toolCallId => .tool id content toolCallId

/-- The wire messages of some chat messages, without the ids that were made for them. -/
def withoutMadeIds (conversation : List ChatMessage) (wire : List Message) : List Message :=
  conversation.zipWith
    (fun message sent =>
      if (message.messageId.bind nonempty?).isSome then sent else readdressed "" sent)
    wire

variable
  {registry : Registry}
  {supply other : IdSupply}
  {messages : List ChatMessage}

/-- The id of a message of a speaker has no part in the rest of it. -/
theorem toSpoken_eq (speaker : Speaker) (id : String) (message : ChatMessage) :
    toSpoken speaker id message = (toSpoken speaker "" message).map (readdressed id) := by
  simp only [toSpoken, bind, Except.bind]
  cases checkPlaces message <;> rfl

/-- The id of a message of the assistant has no part in the rest of it. -/
theorem toAssistant_eq (id : String) (message : ChatMessage) :
    toAssistant registry id message =
      (toAssistant registry "" message).map (readdressed id) := by
  simp only [toAssistant, bind, Except.bind]
  cases toToolCalls registry message.contents <;> rfl

/-- The id of a message of a tool has no part in the rest of it. -/
theorem toTool_eq (id : String) (message : ChatMessage) :
    toTool registry id message = (toTool registry "" message).map (readdressed id) := by
  simp only [toTool, bind, Except.bind]
  cases checkPlaces message with
  | error error =>
      rfl
  | ok passed =>
      simp only
      split
      · next result found =>
        cases registry.serializeContent result.value <;> rfl
      · rfl

/-- Only the id of a wire message depends on the id that it is made under. -/
theorem toMessage_eq (id : String) (message : ChatMessage) :
    toMessage registry id message =
      (toMessage registry "" message).map (readdressed id) := by
  unfold toMessage
  split
  · exact toSpoken_eq .system id message
  · exact toSpoken_eq .developer id message
  · exact toSpoken_eq .user id message
  · exact toAssistant_eq id message
  · exact toTool_eq id message

/-- A message is sent under the id that is chosen for it. -/
theorem id_toMessage
    {id : String}
    {message : ChatMessage}
    {sent : Message}
    (made : toMessage registry id message = .ok sent) :
    sent.id = id := by
  rw [toMessage_eq] at made
  cases bare : toMessage registry "" message with
  | error error =>
      rw [bare] at made
      cases made
  | ok plain =>
      rw [bare] at made
      cases made
      cases plain <;> rfl

/-- Messages are sent one by one, each with the ids that those before it have left. -/
theorem toMessages_cons
    {message : ChatMessage}
    {wire : List Message}
    {last : IdSupply}
    (made : toMessages registry supply (message :: messages) = .ok (wire, last)) :
    ∃ sent rest,
      toMessage registry (supply.orFresh message.messageId).1 message = .ok sent ∧
        toMessages registry (supply.orFresh message.messageId).2 messages = .ok (rest, last) ∧
        wire = sent :: rest := by
  simp only [toMessages, Json.bind_eq_ok, Except.ok.injEq, Prod.exists, Prod.mk.injEq] at made
  obtain ⟨sent, opens, rest, final, follows, rfl, rfl⟩ := made
  exact ⟨sent, rest, opens, follows, rfl⟩

/-- The wire messages of more chat messages stand behind those of the first ones. -/
theorem toMessages_append
    {more : List ChatMessage}
    {wire : List Message}
    {last : IdSupply}
    (made : toMessages registry supply (messages ++ more) = .ok (wire, last)) :
    ∃ first rest between,
      toMessages registry supply messages = .ok (first, between) ∧
        toMessages registry between more = .ok (rest, last) ∧
        wire = first ++ rest := by
  induction messages generalizing supply wire with
  | nil =>
      exact ⟨[], wire, supply, rfl, made, rfl⟩
  | cons message messages inductionHypothesis =>
      obtain ⟨sent, others, opens, follows, rfl⟩ := toMessages_cons made
      obtain ⟨first, rest, between, begins, ends, rfl⟩ := inductionHypothesis follows
      refine ⟨sent :: first, rest, between, ?_, ends, rfl⟩
      simp [toMessages, opens, begins, bind, Except.bind]

/-- One message is sent for each. -/
theorem length_toMessages
    {wire : List Message}
    {last : IdSupply}
    (made : toMessages registry supply messages = .ok (wire, last)) :
    wire.length = messages.length := by
  induction messages generalizing supply wire with
  | nil =>
      cases made
      rfl
  | cons message messages inductionHypothesis =>
      obtain ⟨sent, rest, -, follows, rfl⟩ := toMessages_cons made
      rw [List.length_cons, List.length_cons, inductionHypothesis follows]

/-- A message with an id keeps it, whatever the supply. -/
theorem orFresh_of_given
    {given : Option String}
    (named : (given.bind nonempty?).isSome = true) :
    (supply.orFresh given).1 = (other.orFresh given).1 := by
  cases given with
  | none =>
      simp at named
  | some id =>
      by_cases empty : id.isEmpty = true
      · simp [nonempty?, empty] at named
      · simp [IdSupply.orFresh, empty]

@[simp] theorem readdressed_readdressed (id first : String) (message : Message) :
    readdressed id (readdressed first message) = readdressed id message := by
  cases message <;> rfl

/-- Requests on the same messages differ only in the ids that are made for them. -/
theorem withoutMadeIds_toMessages
    {wire sentBefore : List Message}
    {last lastBefore : IdSupply}
    (made : toMessages registry supply messages = .ok (wire, last))
    (madeBefore : toMessages registry other messages = .ok (sentBefore, lastBefore)) :
    withoutMadeIds messages wire = withoutMadeIds messages sentBefore := by
  induction messages generalizing supply other wire sentBefore with
  | nil =>
      rfl
  | cons message messages inductionHypothesis =>
      obtain ⟨sent, rest, opens, follows, rfl⟩ := toMessages_cons made
      obtain ⟨sentFirst, restBefore, opensBefore, followsBefore, rfl⟩ :=
        toMessages_cons madeBefore
      have others := inductionHypothesis follows followsBefore
      rw [withoutMadeIds, withoutMadeIds] at others ⊢
      rw [List.zipWith_cons_cons, List.zipWith_cons_cons, others]
      congr 1
      by_cases named : (message.messageId.bind nonempty?).isSome = true
      · rw [orFresh_of_given named, opensBefore] at opens
        rw [if_pos named, if_pos named, Except.ok.inj opens]
      · -- Both are the message under no id, each under an id of its own.
        rw [toMessage_eq] at opens opensBefore
        rw [if_neg named, if_neg named]
        cases bare : toMessage registry "" message with
        | error error =>
            rw [bare] at opens
            cases opens
        | ok plain =>
            rw [bare] at opens opensBefore
            rw [← Except.ok.inj opens, ← Except.ok.inj opensBefore]
            simp

/-- The state comes from a last message that holds nothing else, which is then left out. -/
theorem splitState_cases
    {state : Option Json}
    {conversation : List ChatMessage}
    (split : splitState messages = .ok (state, conversation)) :
    (state = none ∧ conversation = messages) ∨
      ∃ carrier bytes document,
        messages = conversation ++ [carrier] ∧
          stateBytes? carrier = some bytes ∧
          Chat.decodeSnapshot bytes = .ok document ∧
          state = some document := by
  unfold splitState at split
  split at split
  · cases split
    exact .inl ⟨rfl, rfl⟩
  · next bytes found =>
    split at split
    · next document decoded =>
      cases split
      obtain ⟨carrier, last, carried⟩ := Option.bind_eq_some_iff.mp found
      obtain ⟨earlier, rfl⟩ := List.getLast?_eq_some_iff.mp last
      exact .inr ⟨carrier, bytes, document, by simp, carried, decoded, rfl⟩
    · cases split

/-- Behind a message that carries no state, all messages are the conversation. -/
theorem splitState_concat
    {last : ChatMessage}
    (plain : stateBytes? last = none)
    (messages : List ChatMessage) :
    splitState (messages ++ [last]) = .ok (none, messages ++ [last]) := by
  simp [splitState, plain]

/-- All that a request is made of. -/
theorem buildRunInput_eq_ok_iff
    {options : Options}
    {input : RunInput}
    {last : IdSupply} :
    buildRunInput messages options registry supply = .ok (input, last) ↔
      ∃ state conversation wire between,
        splitState messages = .ok (state, conversation) ∧
          toMessages registry supply conversation = .ok (wire, between) ∧
          conversation ≠ [] ∧
          input =
            { threadId := options.conversationId.getD ""
              runId := between.fresh.1
              messages := wire
              state := state
              context := options.context
              tools := options.tools
              forwardedProperties := options.forwardedProperties } ∧
          last = between.fresh.2 := by
  simp only [buildRunInput, Json.bind_eq_ok, Prod.exists]
  constructor
  · rintro ⟨state, conversation, split, wire, between, made, taken⟩
    split at taken
    · cases taken
    · next filled =>
      cases taken
      have sameLength := length_toMessages made
      refine ⟨state, conversation, wire, between, split, made, ?_, rfl, rfl⟩
      rintro rfl
      exact filled (by simpa using sameLength)
  · rintro ⟨state, conversation, wire, between, split, made, filled, rfl, rfl⟩
    have sameLength := length_toMessages made
    have sent : ¬wire.isEmpty = true := by
      rw [List.isEmpty_iff_length_eq_zero, sameLength, List.length_eq_zero_iff]
      exact filled
    refine ⟨state, conversation, split, wire, between, made, ?_⟩
    rw [if_neg sent]

/-- What a request takes from the messages and the options that it is built from. -/
theorem buildRunInput_eq_ok
    {options : Options}
    {input : RunInput}
    {last : IdSupply}
    (built : buildRunInput messages options registry supply = .ok (input, last)) :
    ∃ conversation between,
      splitState messages = .ok (input.state, conversation) ∧
        toMessages registry supply conversation = .ok (input.messages, between) ∧
        input.context = options.context ∧
        input.tools = options.tools ∧
        input.forwardedProperties = options.forwardedProperties := by
  obtain ⟨state, conversation, wire, between, split, made, -, rfl, -⟩ :=
    buildRunInput_eq_ok_iff.mp built
  exact ⟨conversation, between, split, made, rfl, rfl, rfl⟩

/-- The thread of a request is the conversation that its caller has named. -/
theorem threadId_buildRunInput
    {options : Options}
    {input : RunInput}
    {last : IdSupply}
    (built : buildRunInput messages options registry supply = .ok (input, last)) :
    input.threadId = options.conversationId.getD "" := by
  obtain ⟨state, conversation, wire, between, -, -, -, rfl, -⟩ :=
    buildRunInput_eq_ok_iff.mp built
  rfl

/--
A request on more messages, of which the last carries no state, repeats the messages of
the request on the first ones.  A message that carried the state there comes next.
-/
theorem buildRunInput_append
    {more : List ChatMessage}
    {options laterOptions : Options}
    {first later : RunInput}
    {firstLast laterLast : IdSupply}
    (built : buildRunInput messages options registry supply = .ok (first, firstLast))
    (stateless : splitState (messages ++ more) = .ok (none, messages ++ more))
    (builtLater :
      buildRunInput (messages ++ more) laterOptions registry other = .ok (later, laterLast)) :
    later.state = none ∧
      ∃ (conversation : List ChatMessage) (repeated added : List Message),
        later.messages = repeated ++ added ∧
          repeated.length = conversation.length ∧
          first.messages.length = conversation.length ∧
          withoutMadeIds conversation repeated = withoutMadeIds conversation first.messages ∧
          (first.state = none → conversation = messages) ∧
          ∀ document,
            first.state = some document →
            ∃ carrier bytes turned rest,
              messages = conversation ++ [carrier] ∧
                stateBytes? carrier = some bytes ∧
                Chat.decodeSnapshot bytes = .ok document ∧
                toMessage registry turned.id carrier = .ok turned ∧
                added = turned :: rest := by
  obtain ⟨conversation, between, split, made, -⟩ := buildRunInput_eq_ok built
  obtain ⟨all, betweenLater, splitLater, madeLater, -⟩ := buildRunInput_eq_ok builtLater
  rw [stateless, Except.ok.injEq, Prod.mk.injEq] at splitLater
  obtain ⟨stateLater, rfl⟩ := splitLater
  refine ⟨stateLater.symm, conversation, ?_⟩
  rcases splitState_cases split with
    ⟨state, rfl⟩ | ⟨carrier, bytes, document, rfl, carries, decoded, state⟩
  · obtain ⟨repeated, added, middle, begins, -, shape⟩ := toMessages_append madeLater
    refine ⟨repeated, added, shape, length_toMessages begins, length_toMessages made,
      withoutMadeIds_toMessages begins made, fun _ => rfl, ?_⟩
    intro document found
    rw [state] at found
    cases found
  · rw [List.append_assoc, List.singleton_append] at madeLater
    obtain ⟨repeated, added, middle, begins, ends, shape⟩ := toMessages_append madeLater
    obtain ⟨turned, rest, turns, -, rfl⟩ := toMessages_cons ends
    refine ⟨repeated, turned :: rest, shape, length_toMessages begins, length_toMessages made,
      withoutMadeIds_toMessages begins made, ?_, ?_⟩
    · intro nothing
      rw [state] at nothing
      cases nothing
    · intro found same
      rw [state, Option.some.injEq] at same
      subst same
      exact ⟨carrier, bytes, turned, rest, rfl, carries, decoded, by rwa [id_toMessage turns], rfl⟩

end AgentWire.Client

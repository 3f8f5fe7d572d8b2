import AgentWire.Proofs.Chat.Registry
import AgentWire.Proofs.Chat.State
import AgentWire.Proofs.Client.Outbound
import AgentWire.Proofs.IdSupply

namespace AgentWire.Client

/-!
# Which messages can be sent

A request is built exactly if each message of the conversation is convertible, and each of
them then becomes one wire message that has its role, its author, its id, its text, its
function calls and its result.  Nothing is dropped: an item that has no place in a message
of its role, and a value that no serializer takes, refuse the whole request.
-/

open Chat
  (ChatMessage ContentItem FunctionCall FunctionResult HeldBy Registry Serializable)

/-- The function calls among some items, in order. -/
def callsOf (items : List ContentItem) : List FunctionCall :=
  items.filterMap ContentItem.call?

/-- The function results among some items, in order. -/
def resultsOf (items : List ContentItem) : List FunctionResult :=
  items.filterMap ContentItem.result?

/--
A message that can be sent: only the assistant makes function calls, a result stands alone
in a tool message, and all arguments and results can be serialized.
-/
structure Convertible (registry : Registry) (message : ChatMessage) : Prop where
  caller : ∀ call, .call call ∈ message.contents → message.role = .assistant
  arguments :
    ∀ call arguments,
      .call call ∈ message.contents →
        call.arguments = some arguments →
          ∀ entry ∈ arguments, Serializable registry entry.2
  answerer : ∀ result, .result result ∈ message.contents → message.role = .tool
  values : ∀ result, .result result ∈ message.contents → Serializable registry result.value
  single : message.role = .tool → (resultsOf message.contents).length = 1

/--
A tool call that carries a function call: it has the same id and name, and its arguments are
the text of an object of all arguments.  The object is empty if there are none.
-/
structure Carries (registry : Registry) (call : FunctionCall) (sent : ToolCall) : Prop where
  id : sent.id = call.callId
  name : sent.name = call.name
  arguments :
    ∃ members,
      HeldBy registry (call.arguments.getD []) members ∧
        sent.arguments = (Json.object members).text

/-- The author that a wire message names; a tool message names none. -/
def authorOf : Message → Option String
  | .spoken _ _ _ name => name
  | .assistant _ _ name _ => name
  | .tool .. => none

/-- The tool calls of a wire message. -/
def toolCallsOf : Message → List ToolCall
  | .assistant _ _ _ toolCalls => toolCalls.getD []
  | .spoken .. | .tool .. => []

/-- The id of the call that a wire message answers. -/
def answeredCall? : Message → Option String
  | .tool _ _ toolCallId => some toolCallId
  | .spoken .. | .assistant .. => none

/-- A wire message that stands for a chat message. -/
structure StandsFor (registry : Registry) (sent : Message) (message : ChatMessage) : Prop where
  role : sent.role = message.role
  author : authorOf sent = if message.role = .tool then none else message.authorName
  /-- An id that is not empty is kept. -/
  id : ∀ id, message.messageId = some id → id ≠ "" → sent.id = id
  calls : List.Forall₂ (Carries registry) (callsOf message.contents) (toolCallsOf sent)
  text :
    message.role ≠ .tool →
      sent.content? =
        if message.role = .assistant then
          nonempty? (wireText message)
        else
          some (wireText message)
  result :
    message.role = .tool →
      ∃ result document,
        resultsOf message.contents = [result] ∧
          registry.serialize result.value = .ok document ∧
          sent.content? = some (if document = .null then "" else document.text) ∧
          answeredCall? sent = some result.callId

variable
  {registry : Registry}
  {supply : IdSupply}
  {message : ChatMessage}
  {messages : List ChatMessage}
  {id : String}
  {sent : Message}

/-! ### Function calls -/

theorem mem_callsOf {items : List ContentItem} {call : FunctionCall} :
    call ∈ callsOf items ↔ .call call ∈ items := by
  rw [callsOf, List.mem_filterMap]
  constructor
  · rintro ⟨item, member, made⟩
    cases item <;>
      cases made
    exact member
  · intro member
    exact ⟨_, member, rfl⟩

theorem mem_resultsOf {items : List ContentItem} {result : FunctionResult} :
    result ∈ resultsOf items ↔ .result result ∈ items := by
  rw [resultsOf, List.mem_filterMap]
  constructor
  · rintro ⟨item, member, given⟩
    cases item <;>
      cases given
    exact member
  · intro member
    exact ⟨_, member, rfl⟩

/-- A function call makes the tool calls that carry it, and no other. -/
theorem toToolCall_eq_ok_iff {call : FunctionCall} {made : ToolCall} :
    toToolCall registry call = .ok made ↔ Carries registry call made := by
  obtain ⟨callId, name, arguments?⟩ := call
  obtain ⟨madeId, madeName, written⟩ := made
  cases arguments? with
  | none =>
      constructor
      · rintro ⟨⟩
        exact ⟨rfl, rfl, [], .nil, rfl⟩
      · rintro ⟨rfl, rfl, members, held, rfl⟩
        cases held
        rfl
  | some arguments =>
      constructor
      · intro taken
        simp only [toToolCall] at taken
        cases serialized : registry.serializeArguments arguments with
        | error problem =>
            simp [serialized] at taken
        | ok document =>
            simp only [serialized] at taken
            cases taken
            obtain ⟨members, held, rfl⟩ :=
              Registry.serializeArguments_eq_ok_iff.mp serialized
            exact ⟨rfl, rfl, members, held, rfl⟩
      · rintro ⟨rfl, rfl, members, held, rfl⟩
        have serialized : registry.serializeArguments arguments = .ok (.object members) :=
          Registry.serializeArguments_eq_ok_iff.mpr ⟨members, held, rfl⟩
        simp only [toToolCall, serialized]

/-- A function call can be sent exactly if all its arguments can be serialized. -/
theorem exists_carries_iff {call : FunctionCall} :
    (∃ made, Carries registry call made) ↔
      ∀ arguments,
        call.arguments = some arguments →
          ∀ entry ∈ arguments, Serializable registry entry.2 := by
  have held : (∃ made, Carries registry call made) ↔
      ∃ members, HeldBy registry (call.arguments.getD []) members := by
    constructor
    · rintro ⟨made, carries⟩
      obtain ⟨members, held, -⟩ := carries.arguments
      exact ⟨members, held⟩
    · rintro ⟨members, held⟩
      exact ⟨⟨call.callId, call.name, (Json.object members).text⟩, rfl, rfl, members, held, rfl⟩
  rw [held, Registry.heldBy_iff]
  cases call.arguments <;>
    simp

/-- The items of a message make the tool calls of its function calls, if no result is among them. -/
theorem toToolCalls_eq_ok_iff {items : List ContentItem} {calls : List ToolCall} :
    toToolCalls registry items = .ok calls ↔
      resultsOf items = [] ∧ List.Forall₂ (Carries registry) (callsOf items) calls := by
  induction items generalizing calls with
  | nil =>
      simp [toToolCalls, resultsOf, callsOf, eq_comm]
  | cons item rest inductionHypothesis =>
      cases item with
      | call call =>
          have results : resultsOf (.call call :: rest) = resultsOf rest := rfl
          have made : callsOf (.call call :: rest) = call :: callsOf rest := rfl
          simp only [toToolCalls, Json.bind_eq_ok, toToolCall_eq_ok_iff, inductionHypothesis,
            results, made, List.forall₂_cons_left_iff, Except.ok.injEq]
          constructor
          · rintro ⟨first, carries, more, ⟨none, others⟩, rfl⟩
            exact ⟨none, first, more, carries, others, rfl⟩
          · rintro ⟨none, first, more, carries, others, rfl⟩
            exact ⟨first, carries, more, ⟨none, others⟩, rfl⟩
      | result result =>
          simp [toToolCalls, resultsOf, ContentItem.result?]
      | text | error | data =>
          exact inductionHypothesis

/-! ### One message -/

/-- Calls have their place in messages of the assistant, results in those of tools. -/
theorem checkPlaces_eq_ok_iff :
    checkPlaces message = .ok () ↔
      (∀ call, .call call ∈ message.contents → message.role = .assistant) ∧
        ∀ result, .result result ∈ message.contents → message.role = .tool := by
  have passes : checkPlaces message = .ok () ↔
      ∀ item ∈ message.contents, misplaced? message.role item = none := by
    rw [← List.findSome?_eq_none_iff, checkPlaces]
    cases message.contents.findSome? (misplaced? message.role) <;>
      simp
  rw [passes]
  constructor
  · intro placed
    constructor
    · intro call member
      simpa [misplaced?] using placed _ member
    · intro result member
      simpa [misplaced?] using placed _ member
  · rintro ⟨caller, answerer⟩ item member
    cases item with
    | call call =>
        simp [misplaced?, caller call member]
    | result result =>
        simp [misplaced?, answerer result member]
    | text | error | data =>
        rfl

/-- Only a message of the assistant may make function calls. -/
theorem callsOf_of_checkPlaces
    (passed : checkPlaces message = .ok ())
    (other : message.role ≠ .assistant) :
    callsOf message.contents = [] := by
  refine List.eq_nil_iff_forall_not_mem.mpr fun call made => other ?_
  exact (checkPlaces_eq_ok_iff.mp passed).1 call (mem_callsOf.mp made)

/-- A message of a speaker is sent as its text. -/
theorem toSpoken_eq_ok_iff {speaker : Speaker} :
    toSpoken speaker id message = .ok sent ↔
      checkPlaces message = .ok () ∧
        sent = .spoken speaker id (wireText message) message.authorName := by
  simp only [toSpoken, Json.check_bind_eq_ok, Except.ok.injEq]
  exact and_congr_right fun _ => eq_comm

/-- A message of the assistant is sent as its text and its calls. -/
theorem toAssistant_eq_ok_iff :
    toAssistant registry id message = .ok sent ↔
      ∃ calls,
        toToolCalls registry message.contents = .ok calls ∧
          sent =
            .assistant id (nonempty? (wireText message)) message.authorName
              (if calls.isEmpty then none else some calls) := by
  simp only [toAssistant, Json.bind_eq_ok, Except.ok.injEq]
  exact exists_congr fun calls => and_congr_right fun _ => eq_comm

/-- A message of a tool is sent as its one result. -/
theorem toTool_eq_ok_iff :
    toTool registry id message = .ok sent ↔
      checkPlaces message = .ok () ∧
        ∃ result content,
          resultsOf message.contents = [result] ∧
            registry.serializeContent result.value = .ok content ∧
            sent = .tool id content result.callId := by
  simp only [toTool, Json.check_bind_eq_ok, resultsOf]
  refine and_congr_right fun _ => ?_
  split
  · next result only =>
    simp only [only, List.cons.injEq, and_true, exists_and_left, exists_eq_left']
    cases serialized : registry.serializeContent result.value with
    | error problem =>
        simp
    | ok content =>
        simp [eq_comm]
  · next results other =>
    simp only [reduceCtorEq, false_iff]
    rintro ⟨result, content, only, -⟩
    exact other result only

theorem resultsOf_eq_nil_iff {items : List ContentItem} :
    resultsOf items = [] ↔ ∀ result, .result result ∉ items := by
  simp only [List.eq_nil_iff_forall_not_mem, mem_resultsOf]

/-- A message of a speaker can be sent exactly if it is convertible. -/
theorem exists_toSpoken_iff {speaker : Speaker} (spoken : message.role = speaker.role) :
    (∃ sent, toSpoken speaker id message = .ok sent) ↔ Convertible registry message := by
  have notAssistant : message.role ≠ .assistant := by
    cases speaker <;>
      simp [spoken, Speaker.role]
  have notTool : message.role ≠ .tool := by
    cases speaker <;>
      simp [spoken, Speaker.role]
  simp only [toSpoken_eq_ok_iff, exists_and_left, exists_eq, and_true, checkPlaces_eq_ok_iff]
  constructor
  · rintro ⟨caller, answerer⟩
    exact
      { caller
        answerer
        arguments := fun call _ member => absurd (caller call member) notAssistant
        values := fun result member => absurd (answerer result member) notTool
        single := fun isTool => absurd isTool notTool }
  · intro convertible
    exact ⟨convertible.caller, convertible.answerer⟩

/-- A message of the assistant can be sent exactly if it is convertible. -/
theorem exists_toAssistant_iff (assistant : message.role = .assistant) :
    (∃ sent, toAssistant registry id message = .ok sent) ↔ Convertible registry message := by
  have carried :
      (∃ sent, toAssistant registry id message = .ok sent) ↔
        (∀ result, .result result ∉ message.contents) ∧
          ∀ call ∈ callsOf message.contents, ∃ made, Carries registry call made := by
    simp only [toAssistant_eq_ok_iff, toToolCalls_eq_ok_iff, resultsOf_eq_nil_iff,
      ← exists_forall₂_iff]
    constructor
    · rintro ⟨sent, calls, ⟨none, carried⟩, -⟩
      exact ⟨none, calls, carried⟩
    · rintro ⟨none, calls, carried⟩
      exact ⟨_, calls, ⟨none, carried⟩, rfl⟩
  simp only [carried, exists_carries_iff, mem_callsOf]
  constructor
  · rintro ⟨none, arguments⟩
    exact
      { caller := fun _ _ => assistant
        arguments := fun call given member => arguments call member given
        answerer := fun result member => absurd member (none result)
        values := fun result member => absurd member (none result)
        single := fun isTool => by simp [assistant] at isTool }
  · intro convertible
    refine ⟨fun result member => ?_, fun call member given => convertible.arguments call given member⟩
    have isTool := convertible.answerer result member
    simp [assistant] at isTool

/-- A message of a tool can be sent exactly if it is convertible. -/
theorem exists_toTool_iff (tool : message.role = .tool) :
    (∃ sent, toTool registry id message = .ok sent) ↔ Convertible registry message := by
  constructor
  · rintro ⟨sent, made⟩
    obtain ⟨placed, result, content, only, serialized, -⟩ := toTool_eq_ok_iff.mp made
    obtain ⟨caller, answerer⟩ := checkPlaces_eq_ok_iff.mp placed
    refine
      { caller
        answerer
        arguments := fun call _ member => ?_
        values := fun other member => ?_
        single := fun _ => by rw [only, List.length_singleton] }
    · have assistant := caller call member
      simp [tool] at assistant
    · rw [← mem_resultsOf, only, List.mem_singleton] at member
      obtain ⟨document, serialized, -⟩ := Registry.serializeContent_eq_ok_iff.mp serialized
      exact Registry.serialize_ok_iff.mp ⟨document, by rw [member, serialized]⟩
  · intro convertible
    obtain ⟨result, only⟩ := List.length_eq_one_iff.mp (convertible.single tool)
    have member : .result result ∈ message.contents := by
      rw [← mem_resultsOf, only, List.mem_singleton]
    obtain ⟨document, serialized⟩ :=
      Registry.serialize_ok_iff.mpr (convertible.values result member)
    have placed := checkPlaces_eq_ok_iff.mpr ⟨convertible.caller, convertible.answerer⟩
    have content := Registry.serializeContent_eq_ok_iff.mpr ⟨document, serialized, rfl⟩
    exact ⟨_, toTool_eq_ok_iff.mpr ⟨placed, result, _, only, content, rfl⟩⟩

/-- A message becomes a wire message exactly if it is convertible. -/
theorem exists_toMessage_iff :
    (∃ sent, toMessage registry id message = .ok sent) ↔ Convertible registry message := by
  unfold toMessage
  split
  · next role => exact exists_toSpoken_iff role
  · next role => exact exists_toSpoken_iff role
  · next role => exact exists_toSpoken_iff role
  · next role => exact exists_toAssistant_iff role
  · next role => exact exists_toTool_iff role

/-- What is sent of a message of a speaker stands for it. -/
theorem standsFor_of_toSpoken
    (speaker : Speaker)
    (spoken : message.role = speaker.role)
    (made : toSpoken speaker (supply.orFresh message.messageId).1 message = .ok sent) :
    StandsFor registry sent message := by
  obtain ⟨placed, rfl⟩ := toSpoken_eq_ok_iff.mp made
  have notAssistant : message.role ≠ .assistant := by
    cases speaker <;>
      simp [spoken, Speaker.role]
  have notTool : message.role ≠ .tool := by
    cases speaker <;>
      simp [spoken, Speaker.role]
  refine
    { role := spoken.symm
      author := by rw [if_neg notTool, authorOf]
      id := fun id given named => by rw [given, IdSupply.orFresh_some named, Message.id]
      calls := ?_
      text := fun _ => by rw [if_neg notAssistant, Message.content?]
      result := fun isTool => absurd isTool notTool }
  rw [callsOf_of_checkPlaces placed notAssistant]
  exact .nil

/-- What is sent of a message of the assistant stands for it. -/
theorem standsFor_of_toAssistant
    (assistant : message.role = .assistant)
    (made : toAssistant registry (supply.orFresh message.messageId).1 message = .ok sent) :
    StandsFor registry sent message := by
  obtain ⟨calls, madeCalls, rfl⟩ := toAssistant_eq_ok_iff.mp made
  obtain ⟨-, carried⟩ := toToolCalls_eq_ok_iff.mp madeCalls
  refine
    { role := assistant.symm
      author := by simp [assistant, authorOf]
      id := fun id given named => by rw [given, IdSupply.orFresh_some named, Message.id]
      calls := ?_
      text := fun _ => by rw [if_pos assistant, Message.content?]
      result := fun isTool => by simp [assistant] at isTool }
  cases calls <;>
    exact carried

/-- What is sent of a message of a tool stands for it. -/
theorem standsFor_of_toTool
    (tool : message.role = .tool)
    (made : toTool registry (supply.orFresh message.messageId).1 message = .ok sent) :
    StandsFor registry sent message := by
  obtain ⟨placed, result, content, only, taken, rfl⟩ := toTool_eq_ok_iff.mp made
  obtain ⟨document, serialized, rfl⟩ := Registry.serializeContent_eq_ok_iff.mp taken
  refine
    { role := tool.symm
      author := by rw [if_pos tool, authorOf]
      id := fun id given named => by rw [given, IdSupply.orFresh_some named, Message.id]
      calls := ?_
      text := fun other => absurd tool other
      result := fun _ => ⟨result, document, only, serialized, rfl, rfl⟩ }
  rw [callsOf_of_checkPlaces placed (by simp [tool])]
  exact .nil

/-- What a message becomes stands for it. -/
theorem standsFor_of_toMessage
    (made : toMessage registry (supply.orFresh message.messageId).1 message = .ok sent) :
    StandsFor registry sent message := by
  unfold toMessage at made
  split at made
  · next role => exact standsFor_of_toSpoken .system role made
  · next role => exact standsFor_of_toSpoken .developer role made
  · next role => exact standsFor_of_toSpoken .user role made
  · next role => exact standsFor_of_toAssistant role made
  · next role => exact standsFor_of_toTool role made

/-! ### The messages of a request -/

/-- Whether a message has no id, or an empty one. -/
def unnamed (message : ChatMessage) : Bool :=
  (message.messageId.bind nonempty?).isNone

/-- The ids of the wire messages that stand for messages without one. -/
def madeIds (conversation : List ChatMessage) (wire : List Message) : List String :=
  ((conversation.zip wire).filter fun pair => unnamed pair.1).map fun pair => pair.2.id

/-- Messages become wire messages exactly if each of them is convertible. -/
theorem exists_toMessages_iff :
    (∃ result, toMessages registry supply messages = .ok result) ↔
      ∀ message ∈ messages, Convertible registry message := by
  induction messages generalizing supply with
  | nil =>
      simp [toMessages]
  | cons message rest inductionHypothesis =>
      rw [List.forall_mem_cons]
      constructor
      · rintro ⟨⟨wire, last⟩, made⟩
        obtain ⟨sent, others, opens, follows, rfl⟩ := toMessages_cons made
        exact ⟨exists_toMessage_iff.mp ⟨sent, opens⟩, inductionHypothesis.mp ⟨_, follows⟩⟩
      · rintro ⟨convertible, restConvertible⟩
        obtain ⟨sent, opens⟩ :
            ∃ sent, toMessage registry (supply.orFresh message.messageId).1 message = .ok sent :=
          exists_toMessage_iff.mpr convertible
        obtain ⟨⟨others, last⟩, follows⟩ :
            ∃ result,
              toMessages registry (supply.orFresh message.messageId).2 rest = .ok result :=
          inductionHypothesis.mpr restConvertible
        exact ⟨⟨sent :: others, last⟩, by simp [toMessages, opens, follows, bind, Except.bind]⟩

/-- The wire messages stand for the messages, one for each and in order. -/
theorem standFor_of_toMessages
    {wire : List Message}
    {last : IdSupply}
    (made : toMessages registry supply messages = .ok (wire, last)) :
    List.Forall₂ (StandsFor registry) wire messages := by
  induction messages generalizing supply wire with
  | nil =>
      cases made
      exact .nil
  | cons message rest inductionHypothesis =>
      obtain ⟨sent, others, opens, follows, rfl⟩ := toMessages_cons made
      exact .cons (standsFor_of_toMessage opens) (inductionHypothesis follows)

/-- The ids that are made are the next ones of the supply, in order. -/
theorem madeIds_toMessages
    {wire : List Message}
    {last : IdSupply}
    (made : toMessages registry supply messages = .ok (wire, last)) :
    ∃ count,
      madeIds messages wire = supply.next count ∧
        last = { supply with used := supply.used + count } := by
  induction messages generalizing supply wire with
  | nil =>
      cases made
      exact ⟨0, rfl, rfl⟩
  | cons message rest inductionHypothesis =>
      obtain ⟨sent, others, opens, follows, rfl⟩ := toMessages_cons made
      obtain ⟨count, madeRest, restSupply⟩ := inductionHypothesis follows
      have named := id_toMessage opens
      by_cases nameless : unnamed message = true
      · have handed : supply.orFresh message.messageId = supply.fresh :=
          IdSupply.orFresh_of_unnamed nameless
        rw [handed] at named madeRest restSupply
        refine ⟨count + 1, ?_, ?_⟩
        · rw [IdSupply.next_succ_fresh, ← madeRest, ← named]
          simp [madeIds, nameless]
        · rw [restSupply]
          simp [IdSupply.fresh, Nat.add_assoc, Nat.add_comm 1]
      · rw [IdSupply.snd_orFresh_of_named nameless] at madeRest restSupply
        refine ⟨count, ?_, restSupply⟩
        rw [← madeRest]
        simp [madeIds, nameless]

/-- What the messages of a call consist of: the conversation, and perhaps the agent's state. -/
inductive Splits (messages : List ChatMessage) : List ChatMessage → Option Json → Prop where
  /-- Without a last message that holds one state document alone, all is conversation. -/
  | whole
      (plain :
        ∀ last bytes,
          messages.getLast? = some last →
            last.contents ≠ [.data Chat.snapshotType bytes]) :
      Splits messages messages none
  /-- A last message that holds one state document alone carries the state. -/
  | carried
      (conversation : List ChatMessage)
      (carrier : ChatMessage)
      (bytes : Text.Bytes)
      (document : Json)
      (last : messages = conversation ++ [carrier])
      (alone : carrier.contents = [.data Chat.snapshotType bytes])
      (parses : Json.Decoder.json.bytes bytes = .ok document) :
      Splits messages conversation (some document)

/-- A message carries a state exactly if a document is all that it holds. -/
theorem stateBytes?_eq_some_iff {bytes : Text.Bytes} :
    stateBytes? message = some bytes ↔ message.contents = [.data Chat.snapshotType bytes] := by
  unfold stateBytes?
  split
  · next mediaType found contents =>
    simp only [contents, List.cons.injEq, ContentItem.data.injEq, and_true]
    split <;>
      simp_all
  · next other =>
    simp only [reduceCtorEq, false_iff]
    exact other _ _

theorem decodeSnapshot_eq_ok_iff {bytes : Text.Bytes} {document : Json} :
    Chat.decodeSnapshot bytes = .ok document ↔
      Json.Decoder.json.bytes bytes = .ok document :=
  Json.mapError_eq_ok

/-- The state is the document of the last message, if that carries one. -/
theorem splitState_eq_ok_iff {conversation : List ChatMessage} {state : Option Json} :
    splitState messages = .ok (state, conversation) ↔ Splits messages conversation state := by
  constructor
  · intro taken
    unfold splitState at taken
    split at taken
    · next stateless =>
      cases taken
      refine .whole fun last bytes lastIs alone => ?_
      rw [lastIs, Option.bind_some, stateBytes?_eq_some_iff.mpr alone] at stateless
      cases stateless
    · next bytes found =>
      split at taken
      · next document decoded =>
        cases taken
        obtain ⟨carrier, last, carries⟩ := Option.bind_eq_some_iff.mp found
        obtain ⟨earlier, rfl⟩ := List.getLast?_eq_some_iff.mp last
        rw [List.dropLast_concat]
        exact .carried earlier carrier bytes document rfl (stateBytes?_eq_some_iff.mp carries)
          (decodeSnapshot_eq_ok_iff.mp decoded)
      · cases taken
  · intro splits
    cases splits with
    | whole plain =>
        have stateless : messages.getLast?.bind stateBytes? = none := by
          refine Option.bind_eq_none_iff.mpr fun last lastIs => ?_
          refine Option.eq_none_iff_forall_ne_some.mpr fun bytes carries => ?_
          exact plain last bytes lastIs (stateBytes?_eq_some_iff.mp carries)
        rw [splitState, stateless]
    | carried _ carrier bytes document last alone parses =>
        subst last
        have carries := stateBytes?_eq_some_iff.mpr alone
        have decoded := decodeSnapshot_eq_ok_iff.mpr parses
        simp [splitState, carries, decoded]

/-- A request is built exactly if the conversation is not empty and all of it can be sent. -/
theorem exists_buildRunInput_iff {options : Options} :
    (∃ result, buildRunInput messages options registry supply = .ok result) ↔
      ∃ conversation state,
        Splits messages conversation state ∧
          conversation ≠ [] ∧
          ∀ message ∈ conversation, Convertible registry message := by
  constructor
  · rintro ⟨⟨input, last⟩, built⟩
    obtain ⟨state, conversation, wire, between, split, made, filled, -⟩ :=
      buildRunInput_eq_ok_iff.mp built
    exact ⟨conversation, state, splitState_eq_ok_iff.mp split, filled,
      exists_toMessages_iff.mp ⟨_, made⟩⟩
  · rintro ⟨conversation, state, splits, filled, convertible⟩
    obtain ⟨⟨wire, between⟩, made⟩ :
        ∃ result, toMessages registry supply conversation = .ok result :=
      exists_toMessages_iff.mpr convertible
    have split := splitState_eq_ok_iff.mpr splits
    exact ⟨_, buildRunInput_eq_ok_iff.mpr
      ⟨state, conversation, wire, between, split, made, filled, rfl, rfl⟩⟩

/--
A request is built exactly if a conversation is left behind a state document that the last
message carries alone, and all of it is convertible.  The request then has one wire message
for each message of the conversation, in order, which stands for it; the ids of those without
one and the id of the run are the next ones of the supply, all different; the state is the
document that was split off; and the rest is what the caller has set.
-/
theorem buildRunInput_represents
    (messages : List ChatMessage)
    (options : Options)
    (registry : Registry)
    (supply : IdSupply) :
    ((∃ result, buildRunInput messages options registry supply = .ok result) ↔
      ∃ conversation state,
        Splits messages conversation state ∧
          conversation ≠ [] ∧
          ∀ message ∈ conversation, Convertible registry message) ∧
      ∀ input last,
        buildRunInput messages options registry supply = .ok (input, last) →
          ∃ conversation,
            Splits messages conversation input.state ∧
              List.Forall₂ (StandsFor registry) input.messages conversation ∧
              (∃ count,
                madeIds conversation input.messages ++ [input.runId] = supply.next count ∧
                  last = { supply with used := supply.used + count } ∧
                  (last.used ≤ IdSupply.capacity → (supply.next count).Nodup)) ∧
              input.threadId = options.conversationId.getD "" ∧
              input.context = options.context ∧
              input.tools = options.tools ∧
              input.forwardedProperties = options.forwardedProperties := by
  refine ⟨exists_buildRunInput_iff, fun input last built => ?_⟩
  obtain ⟨state, conversation, wire, between, split, made, -, rfl, rfl⟩ :=
    buildRunInput_eq_ok_iff.mp built
  obtain ⟨count, ids, rfl⟩ := madeIds_toMessages made
  refine ⟨conversation, splitState_eq_ok_iff.mp split, standFor_of_toMessages made, ⟨count + 1, ?_, rfl, ?_⟩,
    rfl, rfl, rfl, rfl⟩
  · rw [IdSupply.next_succ, ids]
    rfl
  · intro fits
    simp only [IdSupply.fresh] at fits
    exact IdSupply.nodup_next (by omega)

namespace WeatherTalk

def question : ChatMessage where
  role := .user
  contents := [.text "Weather?"]
  messageId := some "m1"
  authorName := some "ann"

/-- Two function calls, the second one without arguments. -/
def calling : ChatMessage where
  role := .assistant
  contents :=
    [.text "Let me see.", .call ⟨"c1", "weather", some [("city", .json (.string "Oslo"))]⟩,
     .call ⟨"c2", "now", none⟩]

def answer : ChatMessage where
  role := .tool
  contents := [.result ⟨"c1", .json .null⟩]
  messageId := some ""

/-- A call with an argument that no serializer is registered for. -/
def pointing : ChatMessage where
  role := .assistant
  contents := [.call ⟨"c3", "go", some [("to", .custom ⟨"Point", 0, .null⟩)]⟩]

def unit : Json :=
  .object [("unit", .string "C")]

theorem convertible : ∀ message ∈ [question, calling, answer], Convertible .empty message := by
  simp only [List.forall_mem_cons]
  refine ⟨?_, ?_, ?_, by simp⟩
  · constructor <;>
      simp [question]
  · constructor
    · simp [calling]
    · intro call arguments made given entry member
      simp only [calling, List.mem_cons, reduceCtorEq, ContentItem.call.injEq, false_or,
        List.not_mem_nil, or_false] at made
      rcases made with rfl | rfl
      · cases given
        rw [List.mem_singleton.mp member]
        trivial
      · cases given
    all_goals simp [calling]
  · constructor <;>
      simp [answer, Serializable, resultsOf, ContentItem.result?]

theorem splits :
    Splits [question, calling, answer, stateMessage unit] [question, calling, answer]
      (some unit) := by
  have parses : Json.Decoder.json.bytes unit.bytes = .ok unit :=
    decodeSnapshot_eq_ok_iff.mp
      (Chat.decodeSnapshot_bytes (by decide +kernel) (by decide +kernel) (by decide +kernel))
  exact .carried _ _ _ _ rfl rfl parses

end WeatherTalk

open WeatherTalk

/--
A conversation with calls and a state is sent, and one with a payload of an unknown type is
not.
-/
theorem buildRunInput_represents_talk :
    (∃ result,
      buildRunInput [question, calling, answer, stateMessage unit] {} .empty {} = .ok result) ∧
      ¬∃ result, buildRunInput [question, pointing] {} .empty {} = .ok result := by
  constructor
  · refine (buildRunInput_represents _ {} .empty {}).1.mpr ⟨_, _, splits, ?_, convertible⟩
    exact List.cons_ne_nil _ _
  · intro built
    obtain ⟨conversation, state, splits, -, all⟩ :=
      (buildRunInput_represents [question, pointing] {} .empty {}).1.mp built
    cases splits with
    | whole plain =>
        have serialized := (all pointing (by simp)).arguments _ _ List.mem_cons_self rfl
        obtain ⟨serializer, document, found, -⟩ := serialized _ List.mem_cons_self
        cases found
    | carried _ carrier bytes document last alone parses =>
        have same : pointing = carrier := by
          simpa using congrArg List.getLast? last
        rw [← same] at alone
        cases alone

end AgentWire.Client

import AgentWire.Client.Turn
import AgentWire.Proofs.Chat.Response
import AgentWire.Proofs.Client.CallSession
import AgentWire.Proofs.Client.Conversion
import Mathlib.Data.List.Basic

namespace AgentWire.Client

/-!
# The function calls that are sent back

A function call arrives as an event, becomes an item of an update, then of a message,
and at last a tool call of the next request.  Nothing on this way drops a call, makes
another one or changes the order.
-/

open Chat
  (ChatMessage ContentItem FunctionCall Joins Registry Response Update callPart
    flatMap_filter_of_vanishes joins_callPart takenOf takenOf_append takenOf_ofUpdates
    takenOf_singleton toldOf toldOf_eq)

/-- The function calls in some messages, in order. -/
def callsAmong (messages : List ChatMessage) : List FunctionCall :=
  messages.flatMap fun message => callsOf message.contents

/-- The ids of the tool calls of a wire message. -/
def toolCallIds : Message → List String
  | .assistant _ _ _ toolCalls => (toolCalls.getD []).map (·.id)
  | .spoken .. | .tool .. => []

/-- The id of the tool call that an item of a stream completes. -/
def completed? : Delivery → Option String
  | .event event =>
      match event.body with
      | .toolCallEnd callId => some callId
      | _ => none
  | .restarted _ => none

/-- The ids of the tool calls that the items of a stream complete, in order. -/
def completedIn (items : List Delivery) : List String :=
  items.filterMap completed?

@[simp] theorem completedIn_append (items more : List Delivery) :
    completedIn (items ++ more) = completedIn items ++ completedIn more :=
  List.filterMap_append

@[simp] theorem callsAmong_append (messages more : List ChatMessage) :
    callsAmong (messages ++ more) = callsAmong messages ++ callsAmong more :=
  List.flatMap_append

theorem callsAmong_singleton (message : ChatMessage) :
    callsAmong [message] = callsOf message.contents := by
  simp [callsAmong]

theorem callsIn_append (updates more : List Update) :
    callsIn (updates ++ more) = callsIn updates ++ callsIn more := by
  simp [callsIn]

theorem callsIn_singleton (update : Update) : callsIn [update] = callsOf update.contents := by
  simp [callsIn, callsOf]

/-! ### From events to updates -/

/-- No update that tells of a tool makes a function call. -/
def ToolsCallNothing (updates : List Update) : Prop :=
  ∀ update ∈ updates, update.role = .tool → callsOf update.contents = []

namespace Inbound

variable
  {machine next : Inbound}
  {event : Event}
  {update? : Option Update}

/-- Only the end of a tool call gives a function call. -/
theorem calls_of_apply
    {made : Update}
    (taken : machine.apply event = .ok (next, some made))
    (other : ∀ callId, event.body ≠ .toolCallEnd callId) :
    callsOf made.contents = [] := by
  have tells := tells_of_apply taken
  cases body : event.body with
  | toolCallEnd callId =>
      exact absurd body (other callId)
  | runFinished threadId runId result =>
      rw [body] at tells
      obtain ⟨-, -, contents⟩ := tells
      cases result <;>
        rw [contents] <;>
        rfl
  | stateSnapshot snapshot | stateDelta delta =>
      rw [body] at tells
      obtain ⟨document, -, contents⟩ := tells
      rw [contents]
      rfl
  | textMessageStart | textMessageEnd | toolCallStart | toolCallArgs =>
      rw [body] at tells
      exact tells.elim
  | runStarted | runError | textMessageContent | toolCallResult =>
      rw [body] at tells
      rw [tells.2]
      rfl

/-- The function call of an update is the tool call that its event completes. -/
theorem apply_calls (taken : machine.apply event = .ok (next, update?)) :
    (callsIn update?.toList).map (·.callId) = (completed? (.event event)).toList ∧
      ToolsCallNothing update?.toList := by
  by_cases ends : ∃ callId, event.body = .toolCallEnd callId
  · obtain ⟨callId, body⟩ := ends
    simp only [apply, body] at taken
    obtain ⟨made, rfl, role, name, arguments, contents⟩ := endCall_eq_ok taken
    simp [callsIn_singleton, callsOf, contents, ContentItem.call?, completed?, body,
      ToolsCallNothing, role]
  · simp only [not_exists] at ends
    have nothing : completed? (.event event) = none := by
      rw [completed?]
      split
      · next callId body => exact absurd body (ends callId)
      · rfl
    rw [nothing]
    cases update? with
    | none =>
        simp [callsIn, ToolsCallNothing]
    | some update =>
        have empty := calls_of_apply taken ends
        simp [callsIn_singleton, empty, ToolsCallNothing]

/-- What is heard of an item adds the tool call that it completes. -/
theorem hear_calls
    {heard : Inbound × List Update}
    {item : Delivery}
    {told : List Update}
    (taken : hear heard item = .ok (machine, told)) :
    ∃ more,
      told = heard.2 ++ more ∧
        (callsIn more).map (·.callId) = (completed? item).toList ∧
        ToolsCallNothing more := by
  cases item with
  | restarted lastNumber =>
      cases taken
      exact ⟨_, rfl, rfl, by simp [ToolsCallNothing, restartedUpdate]⟩
  | event event =>
      cases applied : heard.1.apply event with
      | error error =>
          simp [hear, applied, bind, Except.bind] at taken
      | ok result =>
          simp only [hear, applied, bind, Except.bind, Except.ok.injEq, Prod.mk.injEq] at taken
          exact ⟨_, taken.2.symm, apply_calls applied⟩

/-- The function calls in the updates are the tool calls that the items complete. -/
theorem listen_calls
    {items : List Delivery}
    {told : List Update}
    (heard : listen items = .ok (machine, told)) :
    (callsIn told).map (·.callId) = completedIn items ∧ ToolsCallNothing told := by
  induction items using List.reverseRecOn generalizing machine told with
  | nil =>
      cases heard
      simp [callsIn, completedIn, ToolsCallNothing]
  | append_singleton items item inductionHypothesis =>
      cases before : listen items with
      | error error =>
          rw [listen, List.foldlM_append, ← listen, before] at heard
          cases heard
      | ok result =>
          obtain ⟨calls, tools⟩ := inductionHypothesis before
          rw [listen_concat before] at heard
          obtain ⟨more, rfl, moreCalls, moreTools⟩ := hear_calls heard
          refine ⟨?_, ?_⟩
          · rw [callsIn_append, List.map_append, calls, moreCalls, completedIn_append]
            cases found : completed? item <;>
              simp [completedIn, found]
          · intro update member
            rcases List.mem_append.mp member with early | late
            · exact tools update early
            · exact moreTools update late

end Inbound

/-! ### From updates to messages -/

section History

variable
  {β : Type}
  {part : ContentItem → List β}
  {of : Role → Bool}
  {updates : List Update}
  {message sentBack : ChatMessage}

theorem callsOf_eq (items : List ContentItem) : callsOf items = items.flatMap callPart :=
  List.filterMap_eq_flatMap_toList _ _

/--
What is sent back of a message holds all that is taken of it, if nothing is taken of items
that are no history, nor of a tool's items that are no results.
-/
theorem takenOf_historyOf
    (history : ∀ item, isHistory item = false → part item = [])
    (results : of .tool = true → ∀ item, item.result?.isSome = false → part item = [])
    (message : ChatMessage) :
    takenOf of part (historyOf message) = takenOf of part [message] := by
  have kept : (message.contents.filter isHistory).flatMap part = message.contents.flatMap part :=
    flatMap_filter_of_vanishes fun item _ => history item
  rw [takenOf_singleton, ← kept]
  simp only [historyOf]
  split
  · next empty => simp [List.isEmpty_iff.mp empty, takenOf]
  · split
    · next isTool =>
      cases chosen : of .tool with
      | false =>
          simp [takenOf, isTool, chosen, List.filter_map]
      | true =>
          have split :
              ((message.contents.filter isHistory).filter (·.result?.isSome)).flatMap part =
                (message.contents.filter isHistory).flatMap part :=
            flatMap_filter_of_vanishes fun item _ => results chosen item
          rw [← split]
          simp [takenOf, isTool, chosen, List.filter_map, List.flatMap_map]
    · rw [takenOf_singleton]

/-- What history keeps of updates is sent back: nothing is lost or added. -/
theorem takenOf_historyFrom
    (joins : Joins part)
    (history : ∀ item, isHistory item = false → part item = [])
    (results : of .tool = true → ∀ item, item.result?.isSome = false → part item = []) :
    takenOf of part (historyFrom updates) = toldOf of part updates := by
  rw [← takenOf_ofUpdates joins, historyFrom]
  induction (Response.ofUpdates updates).messages with
  | nil =>
      rfl
  | cons message rest inductionHypothesis =>
      rw [List.flatMap_cons, takenOf_append, takenOf_historyOf history results,
        inductionHypothesis, ← takenOf_append, List.singleton_append]

/-- What is sent back of a message is a part of it, and a tool's results come one by one. -/
theorem of_mem_historyOf (member : sentBack ∈ historyOf message) :
    sentBack.role = message.role ∧
      (∀ item ∈ sentBack.contents, item ∈ message.contents) ∧
      (sentBack.role = .tool → ∃ result, sentBack.contents = [.result result]) := by
  simp only [historyOf] at member
  split at member
  · cases member
  · split at member
    · next isTool =>
      obtain ⟨item, among, rfl⟩ := List.mem_map.mp member
      obtain ⟨inside, isResult⟩ := List.mem_filter.mp among
      refine ⟨isTool.symm, fun other single => ?_, fun _ => ?_⟩
      · rw [List.mem_singleton.mp single]
        exact (List.mem_filter.mp inside).1
      · cases item with
        | result result =>
            exact ⟨result, rfl⟩
        | text | error | call | data =>
            cases isResult
    · next notTool =>
      rw [List.mem_singleton.mp member]
      exact ⟨rfl, fun item inside => (List.mem_filter.mp inside).1,
        fun isTool => absurd isTool notTool⟩

/-- What is sent back of some updates has their function calls. -/
theorem callsAmong_historyFrom (tools : ToolsCallNothing updates) :
    callsAmong (historyFrom updates) = callsIn updates := by
  -- The tool messages of a history hold results alone.
  have others :
      ∀ message ∈ historyFrom updates,
        decide (message.role ≠ .tool) = false → callsOf message.contents = [] := by
    intro sentBack member isTool
    obtain ⟨message, -, inside⟩ := List.mem_flatMap.mp member
    obtain ⟨-, -, single⟩ := of_mem_historyOf inside
    obtain ⟨result, contents⟩ := single (by simpa using isTool)
    rw [contents]
    rfl
  have silent :
      ∀ update ∈ updates,
        decide (update.role ≠ .tool) = false → ∀ item ∈ update.contents, callPart item = [] := by
    intro update member isTool
    rw [← List.flatMap_eq_nil_iff, ← callsOf_eq]
    exact tools update member (by simpa using isTool)
  calc callsAmong (historyFrom updates)
      = takenOf (fun role => decide (role ≠ .tool)) callPart (historyFrom updates) := by
        rw [callsAmong, ← flatMap_filter_of_vanishes others]
        simp only [callsOf_eq, takenOf]
    _ = toldOf (fun role => decide (role ≠ .tool)) callPart updates := by
        refine takenOf_historyFrom joins_callPart (fun item dropped => ?_) (by simp)
        cases item <;>
          simp_all [isHistory, callPart, ContentItem.call?]
    _ = (updates.flatMap (·.contents)).flatMap callPart :=
        toldOf_eq silent
    _ = callsIn updates :=
        (callsOf_eq _).symm

end History

/-! ### From messages to the request -/

section Request

variable
  {registry : Registry}
  {supply : IdSupply}
  {messages : List ChatMessage}

/-- Tool calls have the ids of the function calls that they carry. -/
theorem ids_of_carries
    {calls : List FunctionCall}
    {made : List ToolCall}
    (carried : List.Forall₂ (Carries registry) calls made) :
    made.map (·.id) = calls.map (·.callId) := by
  induction carried with
  | nil =>
      rfl
  | cons carries _ inductionHypothesis =>
      rw [List.map_cons, List.map_cons, carries.id, inductionHypothesis]

/-- A message has the ids of the function calls of the one that it stands for. -/
theorem toolCallIds_of_standsFor
    {message : ChatMessage}
    {sent : Message}
    (stands : StandsFor registry sent message) :
    toolCallIds sent = (callsOf message.contents).map (·.callId) := by
  rw [← ids_of_carries stands.calls]
  cases sent <;>
    rfl

/-- The wire messages have the function calls of their messages. -/
theorem toolCallIds_toMessages
    {wire : List Message}
    {last : IdSupply}
    (made : toMessages registry supply messages = .ok (wire, last)) :
    wire.flatMap toolCallIds = (callsAmong messages).map (·.callId) := by
  have stand := standFor_of_toMessages made
  clear made
  induction stand with
  | nil =>
      rfl
  | cons stands _ inductionHypothesis =>
      rw [List.flatMap_cons, toolCallIds_of_standsFor stands, inductionHypothesis,
        ← List.map_append]
      rfl

/-- A message that holds nothing but a state document makes no function call. -/
theorem callsOf_of_stateBytes
    {message : ChatMessage}
    {bytes : Text.Bytes}
    (carries : stateBytes? message = some bytes) :
    callsOf message.contents = [] := by
  unfold stateBytes? at carries
  split at carries
  · next contents =>
    rw [contents]
    rfl
  · cases carries

/-- A request has the function calls of all messages that it is built from. -/
theorem toolCallIds_buildRunInput
    {options : Options}
    {input : RunInput}
    {last : IdSupply}
    (built : buildRunInput messages options registry supply = .ok (input, last)) :
    input.messages.flatMap toolCallIds = (callsAmong messages).map (·.callId) := by
  obtain ⟨conversation, between, split, made, -⟩ := buildRunInput_eq_ok built
  rw [toolCallIds_toMessages made]
  rcases splitState_cases split with ⟨-, rfl⟩ | ⟨carrier, bytes, document, rfl, carries, -, -⟩
  · rfl
  · rw [callsAmong_append, callsAmong_singleton, callsOf_of_stateBytes carries, List.append_nil]

end Request

end AgentWire.Client

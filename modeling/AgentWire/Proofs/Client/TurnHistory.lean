import AgentWire.Proofs.Client.Inbound
import AgentWire.Proofs.Client.SentBack

namespace AgentWire.Client

/-!
# The history of a turn

The updates of a call are folded into messages, which are cut down to texts, calls and
results and sent back with the next call of the turn.  On this way calls, results and texts
stay what they are and in order, and each item stays in a message of its own role.  What a
machine makes of events is therefore never refused when it is sent back.
-/

open Chat
  (ChatMessage ContentItem Registry Response Update addContents_cases flatMap_filter_of_vanishes
    joins_resultPart joins_textPart messages_concat resultPart takenOf textPart toList_textOf
    toldOf toldOf_eq)

/-! ### Items that have a place in a message -/

/-- An item that can be sent in a message of a role, whatever serializers there are. -/
def Belongs (role : Role) : ContentItem → Prop
  | .call call =>
      role = .assistant ∧
        ∀ arguments,
          call.arguments = some arguments →
            ∀ entry ∈ arguments, ∃ document, entry.2 = .json document
  | .result result => role = .tool ∧ ∃ document, result.value = .json document
  | .text _ | .error .. | .data .. => True

namespace Inbound

variable
  {machine next last : Inbound}
  {event : Event}
  {events : List Event}
  {made : Update}
  {updates : List Update}

/-- Each item of an update belongs to the update's role. -/
theorem belongs_of_apply (taken : machine.apply event = .ok (next, some made)) :
    ∀ item ∈ made.contents, Belongs made.role item := by
  have tells := tells_of_apply taken
  cases body : event.body with
  | toolCallEnd callId =>
      rw [body] at tells
      obtain ⟨role, name, arguments, contents⟩ := tells
      rw [contents, List.forall_mem_singleton]
      refine ⟨role, fun payloads given entry inside => ?_⟩
      obtain ⟨members, -, rfl⟩ := Option.map_eq_some_iff.mp given
      obtain ⟨⟨key, document⟩, -, rfl⟩ := List.mem_map.mp inside
      exact ⟨document, rfl⟩
  | toolCallResult messageId callId content role =>
      rw [body] at tells
      obtain ⟨role, contents⟩ := tells
      rw [contents, List.forall_mem_singleton]
      exact ⟨role, _, rfl⟩
  | runFinished threadId runId result =>
      rw [body] at tells
      obtain ⟨-, -, contents⟩ := tells
      cases result <;>
        simp [contents, Belongs]
  | stateSnapshot snapshot | stateDelta delta =>
      rw [body] at tells
      obtain ⟨document, -, contents⟩ := tells
      simp [contents, Belongs, Chat.encodeSnapshot, Chat.encodeDelta]
  | textMessageStart | textMessageEnd | toolCallStart | toolCallArgs =>
      rw [body] at tells
      exact tells.elim
  | runStarted | runError | textMessageContent =>
      rw [body] at tells
      simp [tells.2, Belongs]

/-- So it is for all updates of a run. -/
theorem belongs_of_follow (followed : machine.follow events = .ok (last, updates)) :
    ∀ update ∈ updates, ∀ item ∈ update.contents, Belongs update.role item := by
  induction events generalizing machine updates with
  | nil =>
      cases followed
      simp
  | cons event events inductionHypothesis =>
      obtain ⟨next, update?, more, taken, rest, rfl⟩ := exists_of_follow_cons followed
      intro update member
      rcases List.mem_append.mp member with first | later
      · rw [Option.mem_toList] at first
        subst first
        exact belongs_of_apply taken
      · exact inductionHypothesis rest update later

end Inbound

/-! ### From updates to the history -/

section History

variable
  {updates : List Update}
  {message sentBack : ChatMessage}
  {registry : Registry}

/-- Joining contents leaves them where they belong. -/
theorem belongs_of_appendItems
    {role : Role}
    {items more : List ContentItem}
    (first : ∀ item ∈ items, Belongs role item)
    (others : ∀ item ∈ more, Belongs role item) :
    ∀ item ∈ Chat.appendItems items more, Belongs role item := by
  induction more generalizing items with
  | nil =>
      exact first
  | cons next rest inductionHypothesis =>
      obtain ⟨nextBelongs, restBelongs⟩ := List.forall_mem_cons.mp others
      refine inductionHypothesis (fun item member => ?_) restBelongs
      unfold Chat.appendItem at member
      split at member
      · rcases List.mem_append.mp member with early | joined
        · exact first item ((List.dropLast_sublist items).subset early)
        · rw [List.mem_singleton.mp joined]
          trivial
      · rcases List.mem_append.mp member with early | added
        · exact first item early
        · rw [List.mem_singleton.mp added]
          exact nextBelongs

/-- The messages of a response hold only items that belong to them, if its updates do. -/
theorem belongs_of_ofUpdates
    (belong : ∀ update ∈ updates, ∀ item ∈ update.contents, Belongs update.role item) :
    ∀ message ∈ (Response.ofUpdates updates).messages,
      ∀ item ∈ message.contents, Belongs message.role item := by
  induction updates using List.reverseRecOn with
  | nil =>
      simp [Response.ofUpdates]
  | append_singleton updates update inductionHypothesis =>
      rw [List.forall_mem_append, List.forall_mem_singleton] at belong
      obtain ⟨before, added⟩ := belong
      have held := inductionHypothesis before
      rw [messages_concat]
      rcases addContents_cases (Response.ofUpdates updates).messages update with
        ⟨-, same⟩ | ⟨-, earlier, last, shape, continues, continued⟩ | ⟨-, -, started⟩
      · rw [same]
        exact held
      · rw [shape, List.forall_mem_append, List.forall_mem_singleton] at held
        rw [continued, List.forall_mem_append, List.forall_mem_singleton]
        exact ⟨held.1,
          belongs_of_appendItems held.2 ((Chat.continues_iff.mp continues).1 ▸ added)⟩
      · rw [started, List.forall_mem_append, List.forall_mem_singleton]
        exact ⟨held, belongs_of_appendItems (by simp) added⟩

/-- The messages of the history hold only items that belong to them. -/
theorem belongs_of_historyFrom
    (belong : ∀ update ∈ updates, ∀ item ∈ update.contents, Belongs update.role item)
    (member : sentBack ∈ historyFrom updates) :
    (∀ item ∈ sentBack.contents, Belongs sentBack.role item) ∧
      (sentBack.role = .tool → ∃ result, sentBack.contents = [.result result]) := by
  obtain ⟨message, among, inside⟩ := List.mem_flatMap.mp member
  obtain ⟨sameRole, subset, single⟩ := of_mem_historyOf inside
  refine ⟨fun item held => ?_, single⟩
  rw [sameRole]
  exact belongs_of_ofUpdates belong message among item (subset item held)

/-- Only messages of the assistant hold calls. -/
theorem callsOf_of_belongs
    {role : Role}
    {items : List ContentItem}
    (belong : ∀ item ∈ items, Belongs role item)
    (other : role ≠ .assistant) :
    callsOf items = [] :=
  List.eq_nil_iff_forall_not_mem.mpr fun _ made => other (belong _ (mem_callsOf.mp made)).1

/-- Only messages of the tool role hold results. -/
theorem resultsOf_of_belongs
    {role : Role}
    {items : List ContentItem}
    (belong : ∀ item ∈ items, Belongs role item)
    (other : role ≠ .tool) :
    resultsOf items = [] :=
  List.eq_nil_iff_forall_not_mem.mpr fun _ given => other (belong _ (mem_resultsOf.mp given)).1

/-- A message whose items belong to it can be sent with any registry. -/
theorem convertible_of_belongs
    (belong : ∀ item ∈ message.contents, Belongs message.role item)
    (single : message.role = .tool → ∃ result, message.contents = [.result result]) :
    Convertible registry message where
  caller call member := (belong _ member).1
  arguments call arguments member given entry inside := by
    obtain ⟨document, plain⟩ := (belong _ member).2 arguments given entry inside
    rw [plain]
    trivial
  answerer result member := (belong _ member).1
  values result member := by
    obtain ⟨document, plain⟩ := (belong _ member).2
    rw [plain]
    trivial
  single isTool := by
    obtain ⟨result, contents⟩ := single isTool
    rw [contents]
    rfl

end History

/-! ### Calls, results and texts -/

section Assembly

variable
  {updates : List Update}
  {messages : List ChatMessage}

theorem resultsOf_eq (items : List ContentItem) : resultsOf items = items.flatMap resultPart :=
  List.filterMap_eq_flatMap_toList _ _

/-- The results of messages that have one each stand in them one by one. -/
theorem contents_of_single
    (single : ∀ message ∈ messages, ∃ result, message.contents = [.result result]) :
    messages.map (·.contents) =
      (messages.flatMap (·.contents.flatMap resultPart)).map fun result => [.result result] := by
  induction messages with
  | nil =>
      rfl
  | cons message rest inductionHypothesis =>
      obtain ⟨⟨result, contents⟩, others⟩ := List.forall_mem_cons.mp single
      rw [List.map_cons, inductionHypothesis others, List.flatMap_cons, List.map_append, contents]
      rfl

/-- The calls of the assistant's messages are those that the updates tell of. -/
theorem callsAmong_assistant
    (belong : ∀ update ∈ updates, ∀ item ∈ update.contents, Belongs update.role item) :
    callsAmong ((historyFrom updates).filter (·.role = .assistant)) = callsIn updates := by
  have tools : ToolsCallNothing updates := by
    intro update member isTool
    exact callsOf_of_belongs (belong update member) (by simp [isTool])
  have others :
      ∀ message ∈ historyFrom updates,
        decide (message.role = .assistant) = false → callsOf message.contents = [] := by
    intro message member other
    obtain ⟨items, -⟩ := belongs_of_historyFrom belong member
    exact callsOf_of_belongs items (of_decide_eq_false other)
  rw [← callsAmong_historyFrom tools]
  exact flatMap_filter_of_vanishes others

/-- The tool messages have one result each, which are those that the updates tell of. -/
theorem contents_tool
    (belong : ∀ update ∈ updates, ∀ item ∈ update.contents, Belongs update.role item) :
    ((historyFrom updates).filter (·.role = .tool)).map (·.contents) =
      (resultsOf (updates.flatMap (·.contents))).map fun result => [.result result] := by
  have single :
      ∀ message ∈ (historyFrom updates).filter (·.role = .tool),
        ∃ result, message.contents = [.result result] := by
    intro message member
    obtain ⟨among, isTool⟩ := List.mem_filter.mp member
    exact (belongs_of_historyFrom belong among).2 (of_decide_eq_true isTool)
  have taken :
      takenOf (fun role => decide (role = .tool)) resultPart (historyFrom updates) =
        toldOf (fun role => decide (role = .tool)) resultPart updates := by
    refine takenOf_historyFrom joins_resultPart (fun item dropped => ?_) fun _ item other => ?_
    · cases item <;>
        simp_all [isHistory, resultPart, ContentItem.result?]
    · simpa [resultPart] using other
  have told :
      toldOf (fun role => decide (role = .tool)) resultPart updates =
        (updates.flatMap (·.contents)).flatMap resultPart := by
    refine toldOf_eq fun update member other => ?_
    rw [← List.flatMap_eq_nil_iff, ← resultsOf_eq]
    exact resultsOf_of_belongs (belong update member) (of_decide_eq_false other)
  rw [contents_of_single single, resultsOf_eq, ← told, ← taken]
  rfl

/-- The texts of the other messages are those that the other updates tell. -/
theorem join_text
    (updates : List Update) :
    String.join (((historyFrom updates).filter (·.role ≠ .tool)).map ChatMessage.text) =
      String.join ((updates.filter (·.role ≠ .tool)).map Update.text) := by
  have taken :
      takenOf (fun role => decide (role ≠ .tool)) textPart (historyFrom updates) =
        toldOf (fun role => decide (role ≠ .tool)) textPart updates := by
    refine takenOf_historyFrom joins_textPart (fun item dropped => ?_) (by simp)
    cases item <;>
      simp_all [isHistory, textPart, ContentItem.text?]
  rw [← String.toList_inj, String.toList_join, String.toList_join, List.flatMap_map,
    List.flatMap_map]
  simp only [ChatMessage.text, Update.text, toList_textOf]
  exact taken

/--
Whatever runs a machine takes, each from a fresh start, and whatever they tell together:
each message of the history becomes a wire message with any registry; the calls of its
assistant messages are the calls that were told, in order and each once; its tool messages
have one result each, which are the results that were told, in order and each once; no other
message has a call or a result; and the other messages have the text that was told outside
of tool updates.
-/
theorem history_sent_back
    {runs : List (List Event)}
    {told : List (List Update)}
    (accepted :
      List.Forall₂
        (fun events updates => ∃ last, Inbound.follow {} events = .ok (last, updates))
        runs
        told) :
    let updates := told.flatten
    let history := historyFrom updates
    (∀ registry id, ∀ message ∈ history, ∃ sent, toMessage registry id message = .ok sent) ∧
      callsAmong (history.filter (·.role = .assistant)) = callsIn updates ∧
      (history.filter (·.role = .tool)).map (·.contents) =
        (resultsOf (updates.flatMap (·.contents))).map (fun result => [.result result]) ∧
      (∀ message ∈ history,
        (message.role ≠ .assistant → callsOf message.contents = []) ∧
          (message.role ≠ .tool → resultsOf message.contents = [])) ∧
      String.join ((history.filter (·.role ≠ .tool)).map ChatMessage.text) =
        String.join ((updates.filter (·.role ≠ .tool)).map Update.text) := by
  intro updates history
  have belong : ∀ update ∈ updates, ∀ item ∈ update.contents, Belongs update.role item := by
    intro update member
    obtain ⟨ofRun, among, inside⟩ := List.mem_flatten.mp member
    obtain ⟨events, -, last, followed⟩ := Json.exists_left_of_forall₂ accepted ofRun among
    exact Inbound.belongs_of_follow followed update inside
  have sentBack :
      ∀ message ∈ history,
        (∀ item ∈ message.contents, Belongs message.role item) ∧
          (message.role = .tool → ∃ result, message.contents = [.result result]) :=
    fun message member => belongs_of_historyFrom belong member
  refine ⟨fun registry id message member => ?_, callsAmong_assistant belong,
    contents_tool belong, fun message member => ?_, join_text updates⟩
  · obtain ⟨items, single⟩ := sentBack message member
    exact exists_toMessage_iff.mpr (convertible_of_belongs items single)
  · obtain ⟨items, -⟩ := sentBack message member
    exact ⟨callsOf_of_belongs items, resultsOf_of_belongs items⟩

end Assembly

namespace BrokenOff

/-- A run that makes a call and breaks off in a text. -/
def first : List Event :=
  List.map EventBody.toEvent
    [.runStarted "t" "r1",
     .toolCallStart "c1" "look" none,
     .toolCallArgs "c1" "\x7b\"far\":true\x7d",
     .toolCallEnd "c1",
     .textMessageStart "m1" "assistant",
     .textMessageContent "m1" "Let "]

/-- A run with a text and two results of tools, a state, a text, and an error. -/
def second : List Event :=
  List.map EventBody.toEvent
    [.textMessageStart "m2" "tool",
     .textMessageContent "m2" "looking",
     .textMessageEnd "m2",
     .toolCallResult "m2" "c1" "false" none,
     .toolCallResult "m2" "c2" "" none,
     .stateSnapshot (some (.object [])),
     .textMessageStart "m3" "",
     .textMessageContent "m3" "me see.",
     .textMessageEnd "m3",
     .runError "late" none]

/-- The updates of both runs. -/
def told : List (List Update) :=
  [first, second].map fun events => (Inbound.run {} events).2

/-- The machine takes both runs. -/
theorem accepted :
    List.Forall₂
      (fun events updates => ∃ last, Inbound.follow {} events = .ok (last, updates))
      [first, second]
      told := by
  refine .cons ⟨(Inbound.run {} first).1, ?_⟩ (.cons ⟨(Inbound.run {} second).1, ?_⟩ .nil)
  · exact Json.eq_ok_of_toOption (by decide +kernel)
  · exact Json.eq_ok_of_toOption (by decide +kernel)

end BrokenOff

open BrokenOff

/-- A call whose run breaks off and one that was answered, each followed by a result. -/
theorem history_sent_back_broken_off :
    (∀ message ∈ historyFrom told.flatten,
      ∃ sent, toMessage .empty "m" message = .ok sent) ∧
      callsAmong ((historyFrom told.flatten).filter (·.role = .assistant)) =
        [⟨"c1", "look", some [("far", .json (.bool true))]⟩] ∧
      ((historyFrom told.flatten).filter (·.role = .tool)).map (·.contents) =
        [[.result ⟨"c1", .json (.bool false)⟩], [.result ⟨"c2", .json .null⟩]] ∧
      String.join
          (((historyFrom told.flatten).filter (·.role ≠ .tool)).map ChatMessage.text) =
        "Let me see." := by
  obtain ⟨sendable, calls, results, -, texts⟩ := history_sent_back accepted
  refine ⟨sendable .empty "m", calls.trans ?_, results.trans ?_, texts.trans ?_⟩ <;>
    decide +kernel

end AgentWire.Client

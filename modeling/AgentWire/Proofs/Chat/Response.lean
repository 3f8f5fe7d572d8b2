import AgentWire.Chat.Response
import Mathlib.Data.List.Induction

namespace AgentWire.Chat

/-!
# What a response keeps of its updates

Updates are grouped into messages and texts that meet are joined.  Whatever is taken of
the items one by one, and of joined texts like of their halves, is the same before and
after, also for the messages and updates of some roles alone.
-/

/-- What is taken of two texts that meet is taken of each of them. -/
def Joins {β : Type} (part : ContentItem → List β) : Prop :=
  ∀ before more, part (.text (before ++ more)) = part (.text before) ++ part (.text more)

/-- What is taken of the items of all messages of some roles. -/
def takenOf
    {β : Type}
    (of : Role → Bool)
    (part : ContentItem → List β)
    (messages : List ChatMessage) :
    List β :=
  (messages.filter (of ·.role)).flatMap (·.contents.flatMap part)

/-- What is taken of the items of all updates of some roles. -/
def toldOf
    {β : Type}
    (of : Role → Bool)
    (part : ContentItem → List β)
    (updates : List Update) :
    List β :=
  (updates.filter (of ·.role)).flatMap (·.contents.flatMap part)

/-- The function calls of an item. -/
def callPart (item : ContentItem) : List FunctionCall :=
  item.call?.toList

/-- The function results of an item. -/
def resultPart (item : ContentItem) : List FunctionResult :=
  item.result?.toList

/-- The characters of an item. -/
def textPart (item : ContentItem) : List Char :=
  (item.text?.getD "").toList

theorem joins_callPart : Joins callPart :=
  fun _ _ => rfl

theorem joins_resultPart : Joins resultPart :=
  fun _ _ => rfl

theorem joins_textPart : Joins textPart :=
  fun _ _ => String.toList_append

/-- The text of some items is made of the characters of each of them. -/
theorem toList_textOf (items : List ContentItem) :
    (textOf items).toList = items.flatMap textPart := by
  rw [textOf, String.toList_join]
  induction items with
  | nil =>
      rfl
  | cons item rest inductionHypothesis =>
      rw [List.flatMap_cons, ← inductionHypothesis, List.filterMap_cons]
      cases item <;>
        simp [textPart, ContentItem.text?]

/-- Leaving out what gives nothing changes nothing. -/
theorem flatMap_filter_of_vanishes
    {α β : Type}
    {keeps : α → Bool}
    {part : α → List β}
    {items : List α}
    (vanishes : ∀ item ∈ items, keeps item = false → part item = []) :
    (items.filter keeps).flatMap part = items.flatMap part := by
  induction items with
  | nil =>
      rfl
  | cons item rest inductionHypothesis =>
      obtain ⟨first, others⟩ := List.forall_mem_cons.mp vanishes
      cases kept : keeps item with
      | true =>
          simp [kept, inductionHypothesis others]
      | false =>
          simp [kept, inductionHypothesis others, first kept]

section Folding

variable
  {β : Type}
  {part : ContentItem → List β}
  {of : Role → Bool}
  {messages more : List ChatMessage}
  {updates : List Update}
  {update : Update}

@[simp] theorem takenOf_append :
    takenOf of part (messages ++ more) = takenOf of part messages ++ takenOf of part more := by
  simp [takenOf]

theorem takenOf_singleton (message : ChatMessage) :
    takenOf of part [message] =
      if of message.role then message.contents.flatMap part else [] := by
  cases chosen : of message.role <;>
    simp [takenOf, chosen]

theorem toldOf_append {later : List Update} :
    toldOf of part (updates ++ later) = toldOf of part updates ++ toldOf of part later := by
  simp [toldOf]

theorem toldOf_singleton :
    toldOf of part [update] = if of update.role then update.contents.flatMap part else [] := by
  cases chosen : of update.role <;>
    simp [toldOf, chosen]

/-- What updates of some roles tell is all that is told, if the others tell nothing. -/
theorem toldOf_eq
    (silent :
      ∀ update ∈ updates,
        of update.role = false → ∀ item ∈ update.contents, part item = []) :
    toldOf of part updates = (updates.flatMap (·.contents)).flatMap part := by
  rw [List.flatMap_assoc]
  refine flatMap_filter_of_vanishes fun update member other => ?_
  exact List.flatMap_eq_nil_iff.mpr (silent update member other)

/-- A part that joins with texts does not see whether an item was joined. -/
theorem flatMap_appendItem (joins : Joins part) (items : List ContentItem) (item : ContentItem) :
    (appendItem items item).flatMap part = items.flatMap part ++ part item := by
  unfold appendItem
  split
  · next before more last =>
    obtain ⟨earlier, rfl⟩ := List.getLast?_eq_some_iff.mp last
    simp [joins before more]
  · simp

/-- A part that joins with texts does not see where items were joined. -/
theorem flatMap_appendItems (joins : Joins part) (items more : List ContentItem) :
    (appendItems items more).flatMap part = items.flatMap part ++ more.flatMap part := by
  induction more generalizing items with
  | nil =>
      simp [appendItems]
  | cons item rest inductionHypothesis =>
      have step := inductionHypothesis (appendItem items item)
      rw [flatMap_appendItem joins, List.append_assoc] at step
      exact step

/-- An update goes on with a message of its role, unless it names another id. -/
theorem continues_iff {message : ChatMessage} :
    update.continues message = true ↔
      message.role = update.role ∧
        (update.messageId = none ∨ message.messageId = update.messageId) := by
  simp [Update.continues]

/-- An update says nothing, goes on with the last message, or starts another one. -/
theorem addContents_cases (messages : List ChatMessage) (update : Update) :
    (update.contents = [] ∧ addContents messages update = messages) ∨
      (update.contents ≠ [] ∧
        ∃ earlier last,
          messages = earlier ++ [last] ∧
            update.continues last = true ∧
            addContents messages update =
              earlier ++
                [{ last with contents := appendItems last.contents update.contents }]) ∨
      (update.contents ≠ [] ∧
        (∀ last ∈ messages.getLast?, update.continues last = false) ∧
        addContents messages update = messages ++ [update.start]) := by
  rw [addContents]
  split
  · next empty => exact .inl ⟨List.isEmpty_iff.mp empty, rfl⟩
  · next some =>
    rw [List.isEmpty_iff] at some
    split
    · next last found =>
      obtain ⟨earlier, rfl⟩ := List.getLast?_eq_some_iff.mp found
      split
      · next continues =>
        exact .inr (.inl ⟨some, earlier, last, rfl, continues, by rw [List.dropLast_concat]⟩)
      · next other => exact .inr (.inr ⟨some, by simpa using other, rfl⟩)
    · next empty =>
      obtain rfl := List.getLast?_eq_none_iff.mp empty
      exact .inr (.inr ⟨some, by simp, rfl⟩)

/-- What an update tells is taken of the messages behind it, and nothing is lost or added. -/
theorem takenOf_addContents (joins : Joins part) :
    takenOf of part (addContents messages update) =
      takenOf of part messages ++ toldOf of part [update] := by
  rw [toldOf_singleton]
  rcases addContents_cases messages update with
    ⟨empty, same⟩ | ⟨-, earlier, last, rfl, continues, continued⟩ | ⟨-, -, started⟩
  · simp [same, empty]
  · rw [continued, takenOf_append, takenOf_append, takenOf_singleton, takenOf_singleton,
      flatMap_appendItems joins, (continues_iff.mp continues).1, List.append_assoc]
    split <;>
      simp
  · rw [started, takenOf_append, takenOf_singleton, Update.start, flatMap_appendItems joins]
    rfl

/-- More updates go on with the response so far. -/
theorem ofUpdates_append (before after : List Update) :
    Response.ofUpdates (before ++ after) = after.foldl Response.add (Response.ofUpdates before) :=
  List.foldl_append

/-- The last update adds its items to the messages of those before it. -/
theorem messages_concat (updates : List Update) (update : Update) :
    (Response.ofUpdates (updates ++ [update])).messages =
      addContents (Response.ofUpdates updates).messages update :=
  congrArg Response.messages (ofUpdates_append updates [update])

/-- The messages of a response hold what its updates told, role by role and in order. -/
theorem takenOf_ofUpdates (joins : Joins part) :
    takenOf of part (Response.ofUpdates updates).messages = toldOf of part updates := by
  induction updates using List.reverseRecOn with
  | nil =>
      rfl
  | append_singleton updates update inductionHypothesis =>
      rw [messages_concat, takenOf_addContents joins, inductionHypothesis, toldOf_append]

end Folding

end AgentWire.Chat

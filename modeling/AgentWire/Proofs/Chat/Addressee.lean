import AgentWire.Proofs.Chat.Grouping

namespace AgentWire.Chat

/-!
# Whose text an update adds to

An update that names a message id speaks under it.  One that names none goes on with the
message that was last added to, if that has its role, so it speaks under the id that the
updates before it named last, or under none.  The text under an id is what the updates that
speak under it say.
-/

/-- The texts of the messages under an id, one after the other. -/
def textUnder (id : Option String) (messages : List ChatMessage) : String :=
  String.join ((messages.filter (·.messageId = id)).map ChatMessage.text)

/--
The id that was named last by the updates of a role with which what was told ends.  Updates
that say nothing do not count.
-/
def addressee (role : Role) (told : List Update) : Option String :=
  ((saying told).reverse.takeWhile (·.role = role)).findSome? (·.messageId)

/-- The id of the last message, if that has a role. -/
def lastId (role : Role) (messages : List ChatMessage) : Option String :=
  messages.getLast?.bind fun last => if last.role = role then last.messageId else none

/-- The id that an update speaks under, behind what was told before it. -/
def Update.speaksUnder (update : Update) (told : List Update) : Option String :=
  update.messageId.or (addressee update.role told)

section Addressee

variable
  {role : Role}
  {earlier messages more : List ChatMessage}
  {last : ChatMessage}
  {id : Option String}
  {told : List Update}
  {update : Update}

theorem lastId_concat :
    lastId role (earlier ++ [last]) = if last.role = role then last.messageId else none := by
  rw [lastId, List.getLast?_concat, Option.bind_some]

/-- An update that goes on with the last message speaks under the id of this message. -/
theorem or_lastId_of_continues
    (continues : update.continues last = true) :
    update.messageId.or (lastId update.role (earlier ++ [last])) = last.messageId := by
  obtain ⟨sameRole, named⟩ := continues_iff.mp continues
  rw [lastId_concat, if_pos sameRole]
  rcases named with unnamed | same
  · rw [unnamed, Option.none_or]
  · rw [← same, Option.or_self]

/-- An update that begins a message of its own speaks under its own id only. -/
theorem or_lastId_of_stops
    (stops : ∀ last ∈ messages.getLast?, update.continues last = false) :
    update.messageId.or (lastId update.role messages) = update.messageId := by
  cases named : update.messageId with
  | some own =>
      rfl
  | none =>
      -- An update without an id stops only behind another role.
      rw [Option.none_or, lastId, Option.bind_eq_none_iff]
      intro last found
      have other := stops last found
      simp only [Update.continues, named, Option.isNone_none, Bool.true_or, Bool.and_true,
        beq_eq_false_iff_ne] at other
      exact if_neg other

/-- Behind an update that says something the last id of its role is the one it speaks under. -/
theorem lastId_addContents
    (some : update.contents ≠ []) :
    lastId role (addContents messages update) =
      if update.role = role then update.messageId.or (lastId update.role messages) else none := by
  rcases addContents_cases messages update with
    ⟨empty, -⟩ | ⟨-, earlier, last, rfl, continues, continued⟩ | ⟨-, stops, started⟩
  · exact absurd empty some
  · rw [continued, lastId_concat, or_lastId_of_continues continues, (continues_iff.mp continues).1]
  · rw [started, lastId_concat, or_lastId_of_stops stops]
    rfl

/-- An update that says something settles whom its role speaks to, and ends what others spoke. -/
theorem addressee_concat
    (some : update.contents ≠ []) :
    addressee role (told ++ [update]) =
      if update.role = role then update.speaksUnder told else none := by
  rw [addressee, saying_concat_of_some some, List.reverse_concat, List.takeWhile_cons]
  split
  · next same =>
    obtain rfl := of_decide_eq_true same
    rw [if_pos rfl, List.findSome?_cons, Update.speaksUnder, addressee]
    cases update.messageId <;>
      rfl
  · next other => rw [if_neg (by simpa using other), List.findSome?_nil]

/-- What was named last is the id of the last message. -/
theorem addressee_eq (role : Role) (told : List Update) :
    addressee role told = lastId role (Response.ofUpdates told).messages := by
  induction told using List.reverseRecOn generalizing role with
  | nil =>
      rfl
  | append_singleton told update inductionHypothesis =>
      rw [messages_concat]
      by_cases empty : update.contents = []
      · rw [addressee, saying_concat_of_empty empty, ← addressee, inductionHypothesis]
        simp [addContents, empty]
      · rw [addressee_concat empty, lastId_addContents empty, Update.speaksUnder,
          inductionHypothesis]

/-! ### The text under an id -/

/-- Joining texts changes no text. -/
theorem textOf_appendItems (items more : List ContentItem) :
    textOf (appendItems items more) = textOf items ++ textOf more := by
  rw [← String.toList_inj, String.toList_append, toList_textOf, toList_textOf, toList_textOf,
    flatMap_appendItems joins_textPart]

@[simp] theorem textUnder_append :
    textUnder id (messages ++ more) = textUnder id messages ++ textUnder id more := by
  simp [textUnder]

theorem textUnder_singleton (message : ChatMessage) :
    textUnder id [message] = if message.messageId = id then message.text else "" := by
  by_cases named : message.messageId = id <;>
    simp [textUnder, named]

/-- An update adds its text under the id that it speaks under, and under no other id. -/
theorem textUnder_addContents :
    textUnder id (addContents messages update) =
      textUnder id messages ++
        if update.messageId.or (lastId update.role messages) = id then update.text else "" := by
  rcases addContents_cases messages update with
    ⟨empty, same⟩ | ⟨-, earlier, last, rfl, continues, continued⟩ | ⟨-, stops, started⟩
  · have silent : update.text = "" := by
      rw [Update.text, empty]
      rfl
    rw [same, silent, ite_self, String.append_empty]
  · rw [continued, or_lastId_of_continues continues, textUnder_append, textUnder_append,
      textUnder_singleton, textUnder_singleton, ChatMessage.text, textOf_appendItems]
    split
    · rw [String.append_assoc]
      rfl
    · simp
  · rw [started, or_lastId_of_stops stops, textUnder_append, textUnder_singleton,
      ChatMessage.text, Update.start, textOf_appendItems]
    simp [Update.text, textOf]

/-- One more update adds its text to the text under the id that it speaks under. -/
theorem textUnder_concat :
    textUnder id (Response.ofUpdates (told ++ [update])).messages =
      textUnder id (Response.ofUpdates told).messages ++
        if update.speaksUnder told = id then update.text else "" := by
  rw [messages_concat, textUnder_addContents, Update.speaksUnder, addressee_eq]

end Addressee

end AgentWire.Chat

import AgentWire.Proofs.Chat.Addressee
import AgentWire.Proofs.Client.Inbound
import AgentWire.Proofs.Json.Writer

namespace AgentWire.Client

/-!
# The text that is collected of a stream

The messages of a response hold under an id the pieces of text that were streamed under it,
and besides them the results of runs that end while the last message is one of the
assistant's under that id.  A result names no message, so it has no message of its own there:
it goes on with the text that was streamed before it.
-/

open Chat (ContentItem Response Update addressee textOf textUnder textUnder_concat)

namespace Inbound

/-- Each event that is accepted, with the updates told before it. -/
def recital (machine : Inbound) (told : List Update) : List Event → List (List Update × Event)
  | [] => []
  | event :: rest =>
      match machine.apply event with
      | .error _ => machine.recital told rest
      | .ok (next, update) => (told, event) :: next.recital (told ++ update.toList) rest

end Inbound

/-- The piece of text that an event streams under an id. -/
def pieceUnder (id : Option String) (event : Event) : String :=
  match event.body with
  | .textMessageContent messageId delta => if some messageId = id then delta else ""
  | _ => ""

/-- The result that goes on with a message under an id, behind some updates. -/
def resultUnder (id : Option String) (told : List Update) (event : Event) : String :=
  match event.body with
  | .runFinished _ _ (some result) => if addressee .assistant told = id then result.text else ""
  | _ => ""

/-- The texts that come in a recital and are collected under an id. -/
def collectedUnder (id : Option String) (recital : List (List Update × Event)) : String :=
  String.join (recital.map fun (told, event) => pieceUnder id event ++ resultUnder id told event)

section Collecting

variable
  {machine next last : Inbound}
  {event : Event}
  {events : List Event}
  {told updates : List Update}
  {update : Update}
  {id : Option String}

/-- An event that tells nothing streams no text and carries no result. -/
theorem unheard_of_silent
    (taken : machine.apply event = .ok (next, none)) :
    pieceUnder id event ++ resultUnder id told event = "" := by
  obtain ⟨timestamp, rawEvent, number, body⟩ := event
  cases body with
  | textMessageContent messageId delta =>
      simp only [Inbound.apply, Inbound.addText, Inbound.unexpected, Inbound.violated] at taken
      repeat' split at taken
      all_goals cases taken
  | runFinished threadId runId result =>
      simp only [Inbound.apply, Inbound.unexpected] at taken
      split at taken <;>
        cases taken
  | runStarted | runError | textMessageStart | textMessageEnd | toolCallStart | toolCallArgs
  | toolCallEnd | toolCallResult | stateSnapshot | stateDelta =>
      rfl

theorem textOf_singleton (item : ContentItem) : textOf [item] = item.text?.getD "" := by
  cases item <;>
    simp [textOf, List.filterMap_cons, ContentItem.text?]

/-- What an update says is the piece or the result that its event brings. -/
theorem heard_of_tells
    (tells : Inbound.Tells update event.body) :
    (if update.speaksUnder told = id then update.text else "") =
      pieceUnder id event ++ resultUnder id told event := by
  obtain ⟨timestamp, rawEvent, number, body⟩ := event
  cases body with
  | textMessageContent messageId delta =>
      obtain ⟨named, contents⟩ := tells
      simp [Update.speaksUnder, Update.text, named, contents, textOf_singleton,
        ContentItem.text?, pieceUnder, resultUnder]
  | runFinished threadId runId result =>
      obtain ⟨role, unnamed, contents⟩ := tells
      cases result <;>
        simp [Update.speaksUnder, Update.text, role, unnamed, contents, textOf_singleton,
          ContentItem.text?, pieceUnder, resultUnder]
      simp [textOf]
  | stateSnapshot snapshot | stateDelta delta =>
      obtain ⟨document, -, contents⟩ := tells
      simp [Update.text, contents, textOf_singleton, ContentItem.text?, Chat.encodeSnapshot,
        Chat.encodeDelta, pieceUnder, resultUnder]
  | toolCallEnd callId =>
      obtain ⟨-, name, arguments, contents⟩ := tells
      simp [Update.text, contents, textOf_singleton, ContentItem.text?, pieceUnder, resultUnder]
  | runStarted =>
      simp [Update.text, tells.2, textOf, pieceUnder, resultUnder]
  | runError | toolCallResult =>
      simp [Update.text, tells.2, textOf_singleton, ContentItem.text?, pieceUnder, resultUnder]
  | textMessageStart | textMessageEnd | toolCallStart | toolCallArgs =>
      exact tells.elim

/-- An event adds to the text under an id exactly its piece and its result. -/
theorem textUnder_of_apply
    {update? : Option Update}
    (taken : machine.apply event = .ok (next, update?)) :
    textUnder id (Response.ofUpdates (told ++ update?.toList)).messages =
      textUnder id (Response.ofUpdates told).messages ++
        (pieceUnder id event ++ resultUnder id told event) := by
  cases update? with
  | none =>
      simp [unheard_of_silent taken]
  | some update =>
      rw [Option.toList_some, textUnder_concat, heard_of_tells (Inbound.tells_of_apply taken)]

/-- Events add to the text under an id what they recite of it. -/
theorem textUnder_of_follow
    (followed : machine.follow events = .ok (last, updates))
    (told : List Update)
    (id : Option String) :
    textUnder id (Response.ofUpdates (told ++ updates)).messages =
      textUnder id (Response.ofUpdates told).messages ++
        collectedUnder id (machine.recital told events) := by
  induction events generalizing machine told updates with
  | nil =>
      cases followed
      simp [Inbound.recital, collectedUnder]
  | cons event rest inductionHypothesis =>
      obtain ⟨next, update?, more, taken, others, rfl⟩ := Inbound.exists_of_follow_cons followed
      rw [← List.append_assoc, inductionHypothesis others (told ++ update?.toList),
        textUnder_of_apply taken]
      simp [Inbound.recital, taken, collectedUnder, String.append_assoc]

/-- A recital of accepted events goes through all of them. -/
theorem recital_events
    (followed : machine.follow events = .ok (last, updates))
    (told : List Update) :
    (machine.recital told events).map (·.2) = events := by
  induction events generalizing machine told updates with
  | nil =>
      rfl
  | cons event rest inductionHypothesis =>
      obtain ⟨next, update?, more, taken, others, rfl⟩ := Inbound.exists_of_follow_cons followed
      simp [Inbound.recital, taken, inductionHypothesis others]

/-- No result goes under an id exactly where the event carries none or another message has it. -/
theorem resultUnder_eq_empty :
    resultUnder id told event = "" ↔
      ∀ threadId runId result,
        event.body = .runFinished threadId runId (some result) →
          addressee .assistant told ≠ id := by
  unfold resultUnder
  split
  · next threadId runId result body =>
    simp [body, Json.text_ne_empty]
  · next other =>
    exact iff_of_true rfl fun threadId runId result body => absurd body (other _ _ _)

/-! ### Texts with and without additions -/

/-- Texts do not get shorter when something is added to each of them. -/
theorem length_join_map_le
    {α : Type}
    (entries : List α)
    (pieces additions : α → String) :
    (String.join (entries.map pieces)).length ≤
      (String.join (entries.map fun entry => pieces entry ++ additions entry)).length := by
  induction entries with
  | nil =>
      exact Nat.le_refl _
  | cons entry rest inductionHypothesis =>
      simp only [List.map_cons, String.join_cons, String.length_append]
      omega

/-- Additions change no text only if each of them is empty. -/
theorem join_map_append_eq_iff
    {α : Type}
    (entries : List α)
    (pieces additions : α → String) :
    String.join (entries.map fun entry => pieces entry ++ additions entry) =
        String.join (entries.map pieces) ↔
      ∀ entry ∈ entries, additions entry = "" := by
  constructor
  · intro same
    -- Only lengths are compared: an addition with a character makes the whole longer.
    have lengths := congrArg String.length same
    clear same
    induction entries with
    | nil =>
        simp
    | cons entry rest inductionHypothesis =>
        have shorter := length_join_map_le rest pieces additions
        simp only [List.map_cons, String.join_cons, String.length_append] at lengths
        refine List.forall_mem_cons.mpr ⟨?_, inductionHypothesis (by omega)⟩
        exact String.length_eq_zero_iff.mp (by omega)
  · intro empty
    refine congrArg String.join (List.map_congr_left fun entry member => ?_)
    rw [empty entry member, String.append_empty]

/--
The text that is collected under an id is what was streamed under it, and besides it the
results of runs that end while the last message is the assistant's under that id.  So it is
the streamed text alone exactly if no result comes there.
-/
theorem collected_text_is_streamed_text
    (accepted : ({} : Inbound).follow events = .ok (last, updates))
    (id : Option String) :
    textUnder id (Response.ofUpdates updates).messages =
        collectedUnder id (({} : Inbound).recital [] events) ∧
      (textUnder id (Response.ofUpdates updates).messages =
          String.join (events.map (pieceUnder id)) ↔
        ∀ entry ∈ ({} : Inbound).recital [] events,
          ∀ threadId runId result,
            entry.2.body = .runFinished threadId runId (some result) →
              addressee .assistant entry.1 ≠ id) := by
  have collected := textUnder_of_follow accepted [] id
  rw [List.nil_append] at collected
  have text :
      textUnder id (Response.ofUpdates updates).messages =
        collectedUnder id (({} : Inbound).recital [] events) := by
    rw [collected]
    exact String.empty_append
  refine ⟨text, ?_⟩
  have streamed :
      events.map (pieceUnder id) =
        (({} : Inbound).recital [] events).map fun entry => pieceUnder id entry.2 := by
    conv_lhs => rw [← recital_events accepted []]
    rw [List.map_map]
    rfl
  rw [text, streamed, collectedUnder, join_map_append_eq_iff]
  simp only [resultUnder_eq_empty]

end Collecting

namespace Answered

/-- Two runs with results, behind a message of the assistant and behind one of the user. -/
def events : List Event :=
  List.map EventBody.toEvent
    [.runStarted "t" "r1",
     .textMessageStart "m1" "assistant",
     .textMessageContent "m1" "Hel",
     .textMessageContent "m1" "lo",
     .textMessageEnd "m1",
     .runFinished "t" "r1" (some (.object [("done", .bool true)])),
     .runStarted "t" "r2",
     .textMessageStart "m2" "user",
     .textMessageContent "m2" "Bye",
     .textMessageEnd "m2",
     .runFinished "t" "r2" (some .null)]

/-- The machine behind both runs, and what they tell. -/
def heard : Inbound × List Update :=
  ({} : Inbound).run events

theorem accepted : ({} : Inbound).follow events = .ok (heard.1, heard.2) :=
  Json.eq_ok_of_toOption (by decide +kernel)

end Answered

/-- Two streamed messages and a run without text, each of which returns a result. -/
theorem collected_text_is_streamed_text_answered :
    ({} : Inbound).follow Answered.events = .ok (Answered.heard.1, Answered.heard.2) ∧
      textUnder (some "m1") (Response.ofUpdates Answered.heard.2).messages =
        "Hello\x7b\"done\":true\x7d" ∧
      textUnder (some "m2") (Response.ofUpdates Answered.heard.2).messages = "Bye" ∧
      textUnder none (Response.ofUpdates Answered.heard.2).messages = "null" := by
  have collected := fun id => (collected_text_is_streamed_text Answered.accepted id).1
  refine ⟨Answered.accepted, ?_, ?_, ?_⟩ <;>
    rw [collected] <;>
    decide +kernel

/-- A result alters the text of the message that was streamed before it. -/
theorem not_collected_text_streamed_alone :
    ¬∀ (events : List Event) (last : Inbound) (updates : List Update) (messageId : String),
        ({} : Inbound).follow events = .ok (last, updates) →
          textUnder (some messageId) (Response.ofUpdates updates).messages =
            String.join (events.map (pieceUnder (some messageId))) := by
  intro streamedAlone
  have same := streamedAlone Answered.events _ _ "m1" Answered.accepted
  revert same
  decide +kernel

end AgentWire.Client

import AgentWire.Client.Inbound
import AgentWire.Proofs.Json.Decoder

namespace AgentWire.Client

/-!
# Runs that a client accepts

`follow` is the machine on events of which it must accept each one.  On events
that it does accept, a run that skips refused events is the same.  What an
accepted event tells is said once, by `Tells`.
-/

open Chat (Payload Update)

/-- The text of an object is read as the arguments that are its members. -/
theorem parseArguments_text
    {members : List (String × Json)}
    (whole : (Json.object members).wholeNumbers = true)
    (shallow : (Json.object members).depth ≤ Json.Route.deepest) :
    parseArguments (Json.object members).text =
      .ok (some (Dictionary.ofEntries (Json.normalMembers members))) := by
  have read := Json.Decoder.json_text whole shallow
  have solid : Text.isBlankText (Json.object members).text = false := by
    rw [Text.isBlankText, Json.text, String.toList_ofList, Json.write, List.all_cons,
      show Text.isBlank '\x7b' = false by decide, Bool.false_and]
  rw [Json.normal, Json.ofMembers] at read
  simp [parseArguments, solid, read]

/-- The text of a document is read as the result that is the document. -/
theorem parseResult_text
    {document : Json}
    (whole : document.wholeNumbers = true)
    (shallow : document.depth ≤ Json.Route.deepest) :
    parseResult document.text = document.normal := by
  have read := Json.Decoder.json_text whole shallow
  have solid : document.text.isEmpty = false := by
    obtain ⟨c, rest, written, -⟩ := Json.Reader.write_eq_cons whole
    simp [Json.text, written]
  simp [parseResult, solid, read]

namespace Inbound

/-- The machine behind some events and the updates that they give, if it accepts all of them. -/
def follow (machine : Inbound) : List Event → Except ClientError (Inbound × List Update)
  | [] => .ok (machine, [])
  | event :: rest => do
      let (next, update) ← machine.apply event
      let (last, updates) ← next.follow rest
      .ok (last, update.toList ++ updates)

variable
  {machine next last : Inbound}
  {event : Event}
  {events rest : List Event}
  {update : Option Update}
  {updates more : List Update}

@[simp] theorem follow_nil : machine.follow [] = .ok (machine, []) :=
  rfl

/-- A machine that takes an event goes on with those behind it. -/
theorem follow_cons
    (accepted : machine.apply event = .ok (next, update))
    (followed : next.follow rest = .ok (last, updates)) :
    machine.follow (event :: rest) = .ok (last, update.toList ++ updates) := by
  simp [follow, accepted, followed, bind, Except.bind]

theorem follow_singleton
    (accepted : machine.apply event = .ok (next, update)) :
    machine.follow [event] = .ok (next, update.toList) := by
  simpa using follow_cons accepted follow_nil

/-- A machine that follows events has taken the first one. -/
theorem exists_of_follow_cons
    (followed : machine.follow (event :: rest) = .ok (last, updates)) :
    ∃ next update more,
      machine.apply event = .ok (next, update) ∧
        next.follow rest = .ok (last, more) ∧
        updates = update.toList ++ more := by
  rw [follow] at followed
  cases accepted : machine.apply event with
  | error refusal =>
      simp [accepted, bind, Except.bind] at followed
  | ok step =>
      obtain ⟨next, update⟩ := step
      cases others : next.follow rest with
      | error refusal =>
          simp [accepted, others, bind, Except.bind] at followed
      | ok result =>
          obtain ⟨behind, more⟩ := result
          simp only [accepted, others, bind, Except.bind, Except.ok.injEq,
            Prod.mk.injEq] at followed
          obtain ⟨rfl, rfl⟩ := followed
          exact ⟨next, update, more, rfl, others, rfl⟩

/-- Behind events that are accepted, a machine goes on with the others. -/
theorem follow_append_eq
    (first : machine.follow events = .ok (next, updates))
    (rest : List Event) :
    machine.follow (events ++ rest) =
      (next.follow rest).map fun (last, more) => (last, updates ++ more) := by
  induction events generalizing machine updates with
  | nil =>
      cases first
      rw [List.nil_append]
      cases next.follow rest <;>
        rfl
  | cons event events inductionHypothesis =>
      obtain ⟨middle, update, others, accepted, followed, rfl⟩ := exists_of_follow_cons first
      rw [List.cons_append, follow, accepted]
      simp only [bind, Except.bind, inductionHypothesis followed]
      cases next.follow rest <;>
        simp [Except.map]

/-- A machine follows one list of events behind another. -/
theorem follow_append
    (first : machine.follow events = .ok (next, updates))
    (second : next.follow rest = .ok (last, more)) :
    machine.follow (events ++ rest) = .ok (last, updates ++ more) := by
  rw [follow_append_eq first, second]
  rfl

/-- Where no event is refused, running is following. -/
theorem run_of_follow
    (followed : machine.follow events = .ok (last, updates)) :
    machine.run events = (last, updates) := by
  induction events generalizing machine updates with
  | nil =>
      cases followed
      rfl
  | cons event events inductionHypothesis =>
      obtain ⟨middle, update, others, accepted, rest, rfl⟩ := exists_of_follow_cons followed
      simp [run, accepted, inductionHypothesis rest]

/-! ### What accepted events tell -/

/-- What an update says if it is given for an event. -/
def Tells (update : Update) : EventBody → Prop
  | .runStarted .. =>
      update.role = .assistant ∧ update.contents = []
  | .runFinished _ _ result =>
      update.role = .assistant ∧
        update.messageId = none ∧
        update.contents = result.toList.map fun value => .text value.text
  | .runError message code =>
      update.role = .assistant ∧ update.contents = [.error message code]
  | .textMessageContent messageId delta =>
      update.messageId = some messageId ∧ update.contents = [.text delta]
  | .toolCallEnd callId =>
      update.role = .assistant ∧
        ∃ (name : String) (arguments : Option (Dictionary Json)),
          update.contents =
            [.call ⟨callId, name, arguments.map fun members =>
              members.map fun (key, value) => (key, Payload.json value)⟩]
  | .toolCallResult _ callId content _ =>
      update.role = .tool ∧ update.contents = [.result ⟨callId, .json (parseResult content)⟩]
  | .stateSnapshot snapshot =>
      ∃ document, snapshot = some document ∧ update.contents = [Chat.encodeSnapshot document]
  | .stateDelta delta =>
      ∃ patch, delta = some patch ∧ update.contents = [Chat.encodeDelta patch]
  | .textMessageStart .. | .textMessageEnd _ | .toolCallStart .. | .toolCallArgs .. =>
      False

/-- The start of a text tells nothing. -/
theorem startText_silent
    {messageId role : String}
    (taken : machine.startText messageId role = .ok (next, update)) :
    update = none := by
  unfold startText at taken
  split at taken
  · cases taken
  · cases taken
  · obtain ⟨role, -, started⟩ := Json.bind_eq_ok.mp taken
    cases started
    rfl

/-- The end of a tool call tells the call. -/
theorem endCall_eq_ok
    {callId : String}
    (taken : machine.endCall event callId = .ok (next, update)) :
    ∃ made, update = some made ∧ Tells made (.toolCallEnd callId) := by
  unfold endCall at taken
  split at taken
  · next opened name parentId arguments phase =>
    split at taken
    · obtain ⟨parsed, -, ended⟩ := Json.bind_eq_ok.mp taken
      cases ended
      exact ⟨_, rfl, rfl, name, parsed, rfl⟩
    · cases taken
  · cases taken

/-- What a machine hands over tells of the event that it took. -/
theorem tells_of_apply
    {made : Update}
    (taken : machine.apply event = .ok (next, some made)) :
    Tells made event.body := by
  obtain ⟨timestamp, rawEvent, number, body⟩ := event
  cases body with
  | textMessageStart messageId role =>
      cases startText_silent taken
  | toolCallEnd callId =>
      obtain ⟨_, ⟨⟩, tells⟩ := endCall_eq_ok taken
      exact tells
  | runError | toolCallResult =>
      cases taken
      exact ⟨rfl, rfl⟩
  | stateSnapshot snapshot =>
      rcases snapshot with - | ⟨_ | _ | _ | _ | _ | _⟩ <;>
        cases taken
      all_goals exact ⟨_, rfl, rfl⟩
  | stateDelta delta =>
      cases delta <;>
        cases taken
      exact ⟨_, rfl, rfl⟩
  | runStarted | runFinished | textMessageContent | textMessageEnd | toolCallStart
  | toolCallArgs =>
      simp only [apply, addText, endText, startCall, addArguments, unexpected, violated] at taken
      repeat' split at taken
      all_goals cases taken
      all_goals simp_all [Tells, Inbound.update]

end Inbound

end AgentWire.Client

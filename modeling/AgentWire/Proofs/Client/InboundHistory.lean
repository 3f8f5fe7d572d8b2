import AgentWire.Client.Inbound

namespace AgentWire.Client

/-!
# What a machine knows of its history

The history of a machine is the list of the events that it took; the refused ones
are not in it.  This list alone tells what is open, the arguments collected for an
open call, the identifiers of the run and which event the machine refuses next.
-/

/--
In a history `after` follows an event with the body `opening`, and nothing in it
ends what that event opens.
-/
def OpenSince
    (opening : EventBody)
    (ending : EventKind)
    (history after : List Event) :
    Prop :=
  ∃ before start,
    history = before ++ start :: after ∧
      start.body = opening ∧
      ∀ later ∈ after, later.kind ≠ ending ∧ later.kind ≠ .runError

/-- A text message starts before `after` and does not end. -/
def TextOpen
    (history : List Event)
    (messageId roleName : String)
    (after : List Event) :
    Prop :=
  OpenSince (.textMessageStart messageId roleName) .textMessageEnd history after

/-- A tool call starts before `after` and does not end. -/
def CallOpen
    (history : List Event)
    (callId name : String)
    (parentId : Option String)
    (after : List Event) :
    Prop :=
  OpenSince (.toolCallStart callId name parentId) .toolCallEnd history after

/-- Some text message or some tool call has not ended. -/
def SomethingOpen (history : List Event) : Prop :=
  (∃ messageId roleName after, TextOpen history messageId roleName after) ∨
    ∃ callId name parentId after, CallOpen history callId name parentId after

/-- The piece of the arguments of a tool call that an event brings. -/
def argumentsPiece? : EventBody → Option String
  | .toolCallArgs _ delta => some delta
  | _ => none

/-- All pieces of arguments that events bring, as one text. -/
def argumentsIn (events : List Event) : String :=
  String.join (events.filterMap (argumentsPiece? ·.body))

/-- The response that the start or the end of a run names. -/
def responseOf? : EventBody → Option String
  | .runStarted _ runId | .runFinished _ runId _ => nonempty? runId
  | _ => none

/-- The conversation that the start or the end of a run names. -/
def conversationOf? : EventBody → Option String
  | .runStarted threadId _ | .runFinished threadId _ _ => nonempty? threadId
  | _ => none

/--
The last name that a history gives to something, no further back than to the last
start of a run; that start stands for itself, also if it gives none.
-/
def lastTold
    (told? : EventBody → Option String)
    (history : List Event) :
    Option String :=
  let run := history.reverse.takeWhile (·.kind ≠ .runStarted)
  let start := history.reverse.find? (·.kind = .runStarted)
  (run.findSome? (told? ·.body)).or (start.bind (told? ·.body))

/-- A text that is blank, or that is the JSON of `null` or of an object. -/
def ReadsAsArguments (text : String) : Prop :=
  Text.isBlankText text = true ∨
    ∃ document,
      Json.Decoder.json.text text = .ok document ∧
        (document = .null ∨ ∃ members, document = .object members)

/-- The events that do not fit what a history leaves open. -/
def Misplaced (history : List Event) : EventBody → Prop
  | .runStarted .. | .runFinished .. | .toolCallStart .. => SomethingOpen history
  | .textMessageStart _ roleName =>
      SomethingOpen history ∨ roleName ≠ "" ∧ Role.ofName? roleName = none
  | .textMessageContent messageId _ | .textMessageEnd messageId =>
      ¬∃ roleName after, TextOpen history messageId roleName after
  | .toolCallArgs callId _ =>
      ¬∃ name parentId after, CallOpen history callId name parentId after
  | .toolCallEnd callId =>
      (¬∃ name parentId after, CallOpen history callId name parentId after) ∨
        ∃ name parentId after,
          CallOpen history callId name parentId after ∧
            ¬ReadsAsArguments (argumentsIn after)
  | .runError .. | .toolCallResult .. | .stateSnapshot _ | .stateDelta _ => False

section History

variable
  {opening : EventBody}
  {ending : EventKind}
  {history after : List Event}
  {event : Event}
  {told? : EventBody → Option String}

@[simp] theorem not_openSince_nil : ¬OpenSince opening ending [] after := by
  simp [OpenSince]

/-- What is open was opened by the last event, or before, and the last event did not end it. -/
theorem openSince_concat :
    OpenSince opening ending (history ++ [event]) after ↔
      (after = [] ∧ event.body = opening) ∨
        ∃ earlier,
          after = earlier ++ [event] ∧
            OpenSince opening ending history earlier ∧
            event.kind ≠ ending ∧ event.kind ≠ .runError := by
  constructor
  · rintro ⟨before, start, split, opens, unended⟩
    rcases List.eq_nil_or_concat after with rfl | ⟨earlier, last, rfl⟩
    · obtain ⟨-, same⟩ := List.append_inj' split rfl
      cases same
      exact .inl ⟨rfl, opens⟩
    · rw [List.concat_eq_append] at split unended ⊢
      have regrouped : history ++ [event] = (before ++ start :: earlier) ++ [last] := by
        simpa using split
      obtain ⟨rfl, same⟩ := List.append_inj' regrouped rfl
      cases same
      have openEarlier : OpenSince opening ending (before ++ start :: earlier) earlier :=
        ⟨before, start, rfl, opens, fun later member => unended later (by simp [member])⟩
      exact .inr ⟨earlier, rfl, openEarlier, unended event (by simp)⟩
  · rintro (⟨rfl, opens⟩ | ⟨earlier, rfl, ⟨before, start, rfl, opens, unended⟩, keeps⟩)
    · exact ⟨history, event, rfl, opens, by simp⟩
    · refine ⟨before, start, by simp, opens, ?_⟩
      intro later member
      rcases List.mem_append.mp member with among | final
      · exact unended later among
      · obtain rfl := List.mem_singleton.mp final
        exact keeps

/-- A text message is open if it starts now, or was open and does not end now. -/
theorem textOpen_concat
    {messageId roleName : String} :
    TextOpen (history ++ [event]) messageId roleName after ↔
      (after = [] ∧ event.body = .textMessageStart messageId roleName) ∨
        ∃ earlier,
          after = earlier ++ [event] ∧
            TextOpen history messageId roleName earlier ∧
            event.kind ≠ .textMessageEnd ∧ event.kind ≠ .runError :=
  openSince_concat

/-- A tool call is open if it starts now, or was open and does not end now. -/
theorem callOpen_concat
    {callId name : String}
    {parentId : Option String} :
    CallOpen (history ++ [event]) callId name parentId after ↔
      (after = [] ∧ event.body = .toolCallStart callId name parentId) ∨
        ∃ earlier,
          after = earlier ++ [event] ∧
            CallOpen history callId name parentId earlier ∧
            event.kind ≠ .toolCallEnd ∧ event.kind ≠ .runError :=
  openSince_concat

@[simp] theorem argumentsIn_nil : argumentsIn [] = "" :=
  rfl

/-- The piece of the last event comes behind the others. -/
theorem argumentsIn_concat :
    argumentsIn (history ++ [event]) =
      argumentsIn history ++ (argumentsPiece? event.body).getD "" := by
  cases piece : argumentsPiece? event.body <;> simp [argumentsIn, piece]

/-- The last event names something anew, or is a start that forgets it, or leaves it. -/
theorem lastTold_concat :
    lastTold told? (history ++ [event]) =
      (told? event.body).or
        (if event.kind = .runStarted then none else lastTold told? history) := by
  by_cases starts : event.kind = .runStarted
  · simp [lastTold, starts]
  · cases told : told? event.body <;> simp [lastTold, starts, told]

end History

namespace Inbound

/-- The events that a machine takes, without those that it refuses. -/
def accepted (machine : Inbound) : List Event → List Event
  | [] => []
  | event :: rest =>
      match machine.apply event with
      | .error _ => machine.accepted rest
      | .ok (next, _) => event :: next.accepted rest

/-- What an event with some body makes of a machine that takes it. -/
def Advances (machine next : Inbound) : EventBody → Prop
  | .runStarted threadId runId =>
      machine.phase = .idle ∧ ⟨.idle, nonempty? runId, nonempty? threadId⟩ = next
  | .runFinished threadId runId _ =>
      machine.phase = .idle ∧
        ⟨.idle, (nonempty? runId).or machine.responseId,
         (nonempty? threadId).or machine.conversationId⟩ = next
  | .runError .. => { machine with phase := .idle } = next
  | .textMessageStart messageId roleName =>
      machine.phase = .idle ∧
        ∃ role,
          messageRole roleName = .ok role ∧
            { machine with phase := .text messageId role } = next
  | .textMessageContent messageId _ =>
      (∃ role, machine.phase = .text messageId role) ∧ machine = next
  | .textMessageEnd messageId =>
      (∃ role, machine.phase = .text messageId role) ∧ { machine with phase := .idle } = next
  | .toolCallStart callId name parentId =>
      machine.phase = .idle ∧ { machine with phase := .call callId name parentId "" } = next
  | .toolCallArgs callId delta =>
      ∃ name parentId arguments,
        machine.phase = .call callId name parentId arguments ∧
          { machine with phase := .call callId name parentId (arguments ++ delta) } = next
  | .toolCallEnd callId =>
      ∃ name parentId arguments,
        machine.phase = .call callId name parentId arguments ∧
          ReadsAsArguments arguments ∧
          { machine with phase := .idle } = next
  | .toolCallResult .. | .stateSnapshot _ | .stateDelta _ => machine = next

variable
  {machine next : Inbound}
  {event : Event}
  {events history : List Event}
  {update : Option Chat.Update}

/-- A text can be parsed as arguments exactly if it reads as such. -/
theorem parseArguments_iff
    {text : String} :
    (∃ parsed, parseArguments text = .ok parsed) ↔ ReadsAsArguments text := by
  by_cases blank : Text.isBlankText text = true
  · simp [parseArguments, ReadsAsArguments, blank]
  · cases read : Json.Decoder.json.text text with
    | error refusal => simp [parseArguments, ReadsAsArguments, blank, read]
    | ok document => cases document <;> simp [parseArguments, ReadsAsArguments, blank, read]

/-- A role is refused exactly if it has a name, and that of no role. -/
theorem no_messageRole_iff
    {roleName : String} :
    (¬∃ role, messageRole roleName = .ok role) ↔
      roleName ≠ "" ∧ Role.ofName? roleName = none := by
  by_cases empty : roleName = ""
  · simp [messageRole, empty]
  · cases known : Role.ofName? roleName <;> simp [messageRole, empty, known]

/-- A text message starts where nothing is open, in a role that is known. -/
theorem startText_iff
    {messageId roleName : String} :
    (∃ update, machine.startText messageId roleName = .ok (next, update)) ↔
      machine.phase = .idle ∧
        ∃ role,
          messageRole roleName = .ok role ∧
            { machine with phase := .text messageId role } = next := by
  cases phase : machine.phase with
  | text opened role => simp [startText, phase, violated]
  | call opened name parentId arguments => simp [startText, phase, violated]
  | idle =>
      cases known : messageRole roleName <;>
        simp [startText, phase, known, bind, Except.bind]

/-- A piece of text belongs to the open message. -/
theorem addText_iff
    {messageId delta : String} :
    (∃ update, machine.addText event messageId delta = .ok (next, update)) ↔
      (∃ role, machine.phase = .text messageId role) ∧ machine = next := by
  cases phase : machine.phase with
  | idle => simp [addText, phase, unexpected]
  | call opened name parentId arguments => simp [addText, phase, unexpected]
  | text opened role =>
      by_cases same : opened = messageId <;> simp [addText, phase, same, violated]

/-- The open message ends, and nothing is open then. -/
theorem endText_iff
    {messageId : String} :
    (∃ update, machine.endText event messageId = .ok (next, update)) ↔
      (∃ role, machine.phase = .text messageId role) ∧
        { machine with phase := .idle } = next := by
  cases phase : machine.phase with
  | idle => simp [endText, phase, unexpected]
  | call opened name parentId arguments => simp [endText, phase, unexpected]
  | text opened role =>
      by_cases same : opened = messageId <;> simp [endText, phase, same, violated]

/-- A tool call starts where nothing is open. -/
theorem startCall_iff
    {callId name : String}
    {parentId : Option String} :
    (∃ update, machine.startCall callId name parentId = .ok (next, update)) ↔
      machine.phase = .idle ∧
        { machine with phase := .call callId name parentId "" } = next := by
  cases phase : machine.phase <;> simp [startCall, phase, violated]

/-- A piece of arguments belongs to the open tool call. -/
theorem addArguments_iff
    {callId delta : String} :
    (∃ update, machine.addArguments event callId delta = .ok (next, update)) ↔
      ∃ name parentId arguments,
        machine.phase = .call callId name parentId arguments ∧
          { machine with phase := .call callId name parentId (arguments ++ delta) } = next := by
  cases phase : machine.phase with
  | idle => simp [addArguments, phase, unexpected]
  | text opened role => simp [addArguments, phase, unexpected]
  | call opened name parentId arguments =>
      by_cases same : opened = callId <;>
        simp [addArguments, phase, same, violated, and_assoc]

/-- The open tool call ends if its arguments can be read, and nothing is open then. -/
theorem endCall_iff
    {callId : String} :
    (∃ update, machine.endCall event callId = .ok (next, update)) ↔
      ∃ name parentId arguments,
        machine.phase = .call callId name parentId arguments ∧
          ReadsAsArguments arguments ∧
          { machine with phase := .idle } = next := by
  cases phase : machine.phase with
  | idle => simp [endCall, phase, unexpected]
  | text opened role => simp [endCall, phase, unexpected]
  | call opened name parentId arguments =>
      by_cases same : opened = callId
      · cases read : parseArguments arguments <;>
          simp [endCall, phase, same, ← parseArguments_iff, read, bind, Except.bind,
            and_assoc]
      · simp [endCall, phase, same, violated]

/-- What a machine takes is told without its updates. -/
theorem advances_iff :
    (∃ update, machine.apply event = .ok (next, update)) ↔ machine.Advances next event.body := by
  obtain ⟨timestamp, rawEvent, number, body⟩ := event
  cases body with
  | runStarted threadId runId =>
      by_cases idle : machine.phase = .idle <;> simp [apply, Advances, idle, unexpected]
  | runFinished threadId runId result =>
      by_cases idle : machine.phase = .idle <;> simp [apply, Advances, idle, unexpected]
  | runError message code => simp [apply, Advances]
  | textMessageStart messageId roleName => exact startText_iff
  | textMessageContent messageId delta => exact addText_iff
  | textMessageEnd messageId => exact endText_iff
  | toolCallStart callId name parentId => exact startCall_iff
  | toolCallArgs callId delta => exact addArguments_iff
  | toolCallEnd callId => exact endCall_iff
  | toolCallResult messageId callId content role => simp [apply, Advances]
  | stateSnapshot snapshot =>
      cases snapshot with
      | none => simp [apply, Advances]
      | some document => cases document <;> simp [apply, Advances]
  | stateDelta delta => cases delta <;> simp [apply, Advances]

/-- A machine refuses exactly the events that do not advance it. -/
theorem apply_error_iff :
    (∃ refusal, machine.apply event = .error refusal) ↔
      ¬∃ next, machine.Advances next event.body := by
  simp only [← advances_iff]
  cases machine.apply event with
  | error refusal => simp
  | ok step =>
      obtain ⟨next, update⟩ := step
      simp

end Inbound

/-- What is open, told by a history. -/
structure Shows (history : List Event) (phase : Phase) : Prop where
  known {messageId roleName : String} {after : List Event} :
    TextOpen history messageId roleName after → ∃ role, messageRole roleName = .ok role
  text_iff (messageId : String) (role : Role) :
    phase = .text messageId role ↔
      ∃ roleName after,
        TextOpen history messageId roleName after ∧ messageRole roleName = .ok role
  call_iff (callId name : String) (parentId : Option String) (arguments : String) :
    phase = .call callId name parentId arguments ↔
      ∃ after, CallOpen history callId name parentId after ∧ arguments = argumentsIn after

namespace Shows

variable
  {history after : List Event}
  {phase : Phase}
  {event : Event}
  {messageId roleName callId name : String}
  {parentId : Option String}

/-- A text message that is open in the history is open in the machine. -/
theorem phase_of_textOpen
    (shows : Shows history phase)
    (opened : TextOpen history messageId roleName after) :
    ∃ role, messageRole roleName = .ok role ∧ phase = .text messageId role := by
  obtain ⟨role, known⟩ := shows.known opened
  exact ⟨role, known, (shows.text_iff messageId role).mpr ⟨roleName, after, opened, known⟩⟩

/-- A tool call that is open in the history is open in the machine, with all its pieces. -/
theorem phase_of_callOpen
    (shows : Shows history phase)
    (opened : CallOpen history callId name parentId after) :
    phase = .call callId name parentId (argumentsIn after) :=
  (shows.call_iff callId name parentId _).mpr ⟨after, opened, rfl⟩

/-- No text message is open beside a tool call. -/
theorem not_textOpen_of_call
    {arguments : String}
    (shows : Shows history (.call callId name parentId arguments)) :
    ¬TextOpen history messageId roleName after := by
  intro opened
  obtain ⟨role, -, other⟩ := shows.phase_of_textOpen opened
  cases other

/-- No tool call is open beside a text message. -/
theorem not_callOpen_of_text
    {role : Role}
    (shows : Shows history (.text messageId role)) :
    ¬CallOpen history callId name parentId after := by
  intro opened
  cases shows.phase_of_callOpen opened

/-- A machine is idle exactly where the history leaves nothing open. -/
theorem idle_iff : Shows history .idle ↔ ¬SomethingOpen history := by
  constructor
  · rintro shows (⟨messageId, roleName, after, opened⟩ | ⟨callId, name, parentId, after, opened⟩)
    · obtain ⟨role, -, other⟩ := shows.phase_of_textOpen opened
      cases other
    · cases shows.phase_of_callOpen opened
  · intro nothing
    simp only [SomethingOpen, not_or, not_exists] at nothing
    obtain ⟨noText, noCall⟩ := nothing
    constructor
    · intro messageId roleName after opened
      exact (noText _ _ _ opened).elim
    · simp [noText]
    · simp [noCall]

/-- An event that starts, ends and adds nothing leaves what is open. -/
theorem concat_silent
    (shows : Shows history phase)
    (keeps :
      event.kind ∉
        [.textMessageStart, .textMessageEnd, .toolCallStart, .toolCallEnd, .runError])
    (silent : argumentsPiece? event.body = none) :
    Shows (history ++ [event]) phase := by
  simp only [List.mem_cons, List.not_mem_nil, or_false, not_or] at keeps
  obtain ⟨noTextStart, textStays, noCallStart, callStays, noError⟩ := keeps
  have otherText messageId roleName : event.body ≠ .textMessageStart messageId roleName :=
    fun same => noTextStart (congrArg EventBody.kind same)
  have otherCall callId name parentId : event.body ≠ .toolCallStart callId name parentId :=
    fun same => noCallStart (congrArg EventBody.kind same)
  constructor
  · intro messageId roleName after opened
    simp only [textOpen_concat, otherText, and_false, false_or] at opened
    obtain ⟨earlier, -, opened, -⟩ := opened
    exact shows.known opened
  · intro messageId role
    rw [shows.text_iff]
    constructor
    · rintro ⟨roleName, after, opened, known⟩
      refine ⟨roleName, after ++ [event], ?_, known⟩
      exact textOpen_concat.mpr (.inr ⟨after, rfl, opened, textStays, noError⟩)
    · rintro ⟨roleName, after, opened, known⟩
      simp only [textOpen_concat, otherText, and_false, false_or] at opened
      obtain ⟨earlier, -, opened, -⟩ := opened
      exact ⟨roleName, earlier, opened, known⟩
  · intro callId name parentId arguments
    rw [shows.call_iff]
    constructor
    · rintro ⟨after, opened, rfl⟩
      refine ⟨after ++ [event], ?_, by simp [argumentsIn_concat, silent]⟩
      exact callOpen_concat.mpr (.inr ⟨after, rfl, opened, callStays, noError⟩)
    · rintro ⟨after, opened, rfl⟩
      simp only [callOpen_concat, otherCall, and_false, false_or] at opened
      obtain ⟨earlier, rfl, opened, -⟩ := opened
      exact ⟨earlier, opened, by simp [argumentsIn_concat, silent]⟩

/-- A piece of arguments is added to the open tool call. -/
theorem concat_arguments
    {delta arguments : String}
    (shows : Shows history (.call callId name parentId arguments))
    (piece : event.body = .toolCallArgs callId delta) :
    Shows (history ++ [event]) (.call callId name parentId (arguments ++ delta)) := by
  have kind : event.kind = .toolCallArgs := by simp [Event.kind, piece, EventBody.kind]
  have noText messageId roleName after : ¬TextOpen history messageId roleName after :=
    shows.not_textOpen_of_call
  constructor
  · simp [textOpen_concat, kind, piece, noText]
  · simp [textOpen_concat, kind, piece, noText]
  · intro otherId otherName otherParent otherArguments
    constructor
    · rintro ⟨⟩
      obtain ⟨after, opened, rfl⟩ := (shows.call_iff _ _ _ _).mp rfl
      refine ⟨after ++ [event], ?_, by simp [argumentsIn_concat, piece, argumentsPiece?]⟩
      exact callOpen_concat.mpr (.inr ⟨after, rfl, opened, by simp [kind]⟩)
    · rintro ⟨after, opened, rfl⟩
      simp only [callOpen_concat, piece, reduceCtorEq, and_false, false_or] at opened
      obtain ⟨earlier, rfl, opened, -⟩ := opened
      cases shows.phase_of_callOpen opened
      simp [argumentsIn_concat, piece, argumentsPiece?]

/-- A text message that starts is open. -/
theorem concat_start_text
    {role : Role}
    (shows : Shows history .idle)
    (starts : event.body = .textMessageStart messageId roleName)
    (known : messageRole roleName = .ok role) :
    Shows (history ++ [event]) (.text messageId role) := by
  have kind : event.kind = .textMessageStart := by simp [Event.kind, starts, EventBody.kind]
  have nothing := idle_iff.mp shows
  simp only [SomethingOpen, not_or, not_exists] at nothing
  obtain ⟨noText, noCall⟩ := nothing
  constructor
  · intro otherId otherRole after opened
    obtain ⟨-, same⟩ : after = [] ∧ event.body = .textMessageStart otherId otherRole := by
      simpa [textOpen_concat, noText] using opened
    cases starts.symm.trans same
    exact ⟨role, known⟩
  · simp [textOpen_concat, starts, noText, known, and_assoc]
  · simp [callOpen_concat, kind, starts, noCall]

/-- A tool call that starts is open, without arguments yet. -/
theorem concat_start_call
    (shows : Shows history .idle)
    (starts : event.body = .toolCallStart callId name parentId) :
    Shows (history ++ [event]) (.call callId name parentId "") := by
  have kind : event.kind = .toolCallStart := by simp [Event.kind, starts, EventBody.kind]
  have nothing := idle_iff.mp shows
  simp only [SomethingOpen, not_or, not_exists] at nothing
  obtain ⟨noText, noCall⟩ := nothing
  constructor
  · simp [textOpen_concat, kind, starts, noText]
  · simp [textOpen_concat, kind, starts, noText]
  · simp [callOpen_concat, starts, noCall, and_assoc]

/-- Nothing is open behind the end of the open message. -/
theorem concat_end_text
    {role : Role}
    (shows : Shows history (.text messageId role))
    (ends : event.body = .textMessageEnd messageId) :
    Shows (history ++ [event]) .idle := by
  have kind : event.kind = .textMessageEnd := by simp [Event.kind, ends, EventBody.kind]
  have noCall callId name parentId after : ¬CallOpen history callId name parentId after :=
    shows.not_callOpen_of_text
  simp [idle_iff, SomethingOpen, textOpen_concat, callOpen_concat, kind, ends, noCall]

/-- Nothing is open behind the end of the open tool call. -/
theorem concat_end_call
    {arguments : String}
    (shows : Shows history (.call callId name parentId arguments))
    (ends : event.body = .toolCallEnd callId) :
    Shows (history ++ [event]) .idle := by
  have kind : event.kind = .toolCallEnd := by simp [Event.kind, ends, EventBody.kind]
  have noText messageId roleName after : ¬TextOpen history messageId roleName after :=
    shows.not_textOpen_of_call
  simp [idle_iff, SomethingOpen, textOpen_concat, callOpen_concat, kind, ends, noText]

/-- Nothing is open behind an error. -/
theorem concat_error
    {message : String}
    {code : Option String}
    (fails : event.body = .runError message code) :
    Shows (history ++ [event]) .idle := by
  have kind : event.kind = .runError := by simp [Event.kind, fails, EventBody.kind]
  simp [idle_iff, SomethingOpen, textOpen_concat, callOpen_concat, kind, fails]

/-- What an event that is taken opens and ends is opened and ended in the history. -/
theorem concat
    {machine next : Inbound}
    (shows : Shows history machine.phase)
    (advances : machine.Advances next event.body) :
    Shows (history ++ [event]) next.phase := by
  obtain ⟨timestamp, rawEvent, number, body⟩ := event
  -- An event that is taken opens something, ends it, or leaves open what was.
  cases body with
  | runStarted threadId runId =>
      obtain ⟨idle, rfl⟩ := advances
      exact (idle ▸ shows).concat_silent (by simp [Event.kind, EventBody.kind]) rfl
  | runFinished threadId runId result =>
      obtain ⟨idle, rfl⟩ := advances
      exact (idle ▸ shows).concat_silent (by simp [Event.kind, EventBody.kind]) rfl
  | runError message code =>
      cases advances
      exact concat_error rfl
  | textMessageStart messageId roleName =>
      obtain ⟨idle, role, known, rfl⟩ := advances
      exact (idle ▸ shows).concat_start_text rfl known
  | textMessageContent messageId delta =>
      obtain ⟨-, rfl⟩ := advances
      exact shows.concat_silent (by simp [Event.kind, EventBody.kind]) rfl
  | textMessageEnd messageId =>
      obtain ⟨⟨role, opened⟩, rfl⟩ := advances
      exact (opened ▸ shows).concat_end_text rfl
  | toolCallStart callId name parentId =>
      obtain ⟨idle, rfl⟩ := advances
      exact (idle ▸ shows).concat_start_call rfl
  | toolCallArgs callId delta =>
      obtain ⟨name, parentId, arguments, opened, rfl⟩ := advances
      exact (opened ▸ shows).concat_arguments rfl
  | toolCallEnd callId =>
      obtain ⟨name, parentId, arguments, opened, -, rfl⟩ := advances
      exact (opened ▸ shows).concat_end_call rfl
  | toolCallResult messageId callId content role =>
      cases advances
      exact shows.concat_silent (by simp [Event.kind, EventBody.kind]) rfl
  | stateSnapshot snapshot =>
      cases advances
      exact shows.concat_silent (by simp [Event.kind, EventBody.kind]) rfl
  | stateDelta delta =>
      cases advances
      exact shows.concat_silent (by simp [Event.kind, EventBody.kind]) rfl

/-- Something is open in the history exactly if the machine is not idle. -/
theorem somethingOpen_iff (shows : Shows history phase) :
    SomethingOpen history ↔ phase ≠ .idle := by
  constructor
  · rintro opened rfl
    exact idle_iff.mp shows opened
  · intro busy
    cases phase with
    | idle => exact absurd rfl busy
    | text messageId role =>
        obtain ⟨roleName, after, opened, -⟩ := (shows.text_iff messageId role).mp rfl
        exact .inl ⟨messageId, roleName, after, opened⟩
    | call callId name parentId arguments =>
        obtain ⟨after, opened, -⟩ := (shows.call_iff callId name parentId arguments).mp rfl
        exact .inr ⟨callId, name, parentId, after, opened⟩

/-- The history and the machine agree on which text message is open. -/
theorem exists_textOpen_iff (shows : Shows history phase) :
    (∃ roleName after, TextOpen history messageId roleName after) ↔
      ∃ role, phase = .text messageId role := by
  constructor
  · rintro ⟨roleName, after, opened⟩
    obtain ⟨role, -, phase⟩ := shows.phase_of_textOpen opened
    exact ⟨role, phase⟩
  · rintro ⟨role, phase⟩
    obtain ⟨roleName, after, opened, -⟩ := (shows.text_iff messageId role).mp phase
    exact ⟨roleName, after, opened⟩

/-- The history and the machine agree on which tool call is open, and on its arguments. -/
theorem exists_callOpen_iff
    (shows : Shows history phase)
    (callId : String)
    (accepts : String → Prop) :
    (∃ name parentId after,
        CallOpen history callId name parentId after ∧ accepts (argumentsIn after)) ↔
      ∃ name parentId arguments,
        phase = .call callId name parentId arguments ∧ accepts arguments := by
  constructor
  · rintro ⟨name, parentId, after, opened, accepted⟩
    exact ⟨name, parentId, argumentsIn after, shows.phase_of_callOpen opened, accepted⟩
  · rintro ⟨name, parentId, arguments, phase, accepted⟩
    obtain ⟨after, opened, rfl⟩ := (shows.call_iff callId name parentId arguments).mp phase
    exact ⟨name, parentId, after, opened, accepted⟩

/-- The events that a machine refuses are those that are misplaced in its history. -/
theorem misplaced_iff
    {machine : Inbound}
    {body : EventBody}
    (shows : Shows history machine.phase) :
    Misplaced history body ↔ ¬∃ next, machine.Advances next body := by
  -- The machine has open what the history has; the arguments matter only where a call ends.
  have callOpen callId := shows.exists_callOpen_iff callId fun _ => True
  have unreadable callId :=
    shows.exists_callOpen_iff callId fun text => ¬ReadsAsArguments text
  simp only [and_true] at callOpen
  cases body with
  | runStarted threadId runId =>
      simp [Misplaced, Inbound.Advances, shows.somethingOpen_iff]
  | runFinished threadId runId result =>
      simp [Misplaced, Inbound.Advances, shows.somethingOpen_iff]
  | runError message code => simp [Misplaced, Inbound.Advances]
  | textMessageStart messageId roleName =>
      rw [Misplaced, shows.somethingOpen_iff, ← Inbound.no_messageRole_iff]
      by_cases idle : machine.phase = .idle <;> simp [Inbound.Advances, idle]
  | textMessageContent messageId delta =>
      simp [Misplaced, Inbound.Advances, shows.exists_textOpen_iff]
  | textMessageEnd messageId =>
      simp [Misplaced, Inbound.Advances, shows.exists_textOpen_iff]
  | toolCallStart callId name parentId =>
      simp [Misplaced, Inbound.Advances, shows.somethingOpen_iff]
  | toolCallArgs callId delta =>
      rw [Misplaced, callOpen]
      refine not_congr ⟨?_, ?_⟩
      · rintro ⟨name, parentId, arguments, opened⟩
        exact ⟨_, name, parentId, arguments, opened, rfl⟩
      · rintro ⟨-, name, parentId, arguments, opened, -⟩
        exact ⟨name, parentId, arguments, opened⟩
  | toolCallEnd callId =>
      rw [Misplaced, callOpen, unreadable]
      constructor
      · rintro (closed | ⟨name, parentId, arguments, opened, unread⟩)
        · rintro ⟨-, name, parentId, arguments, opened, -⟩
          exact closed ⟨name, parentId, arguments, opened⟩
        · rintro ⟨-, otherName, otherParent, otherArguments, other, read, -⟩
          cases opened.symm.trans other
          exact unread read
      · intro refused
        by_cases opens : ∃ name parentId arguments,
            machine.phase = .call callId name parentId arguments
        · obtain ⟨name, parentId, arguments, opened⟩ := opens
          refine .inr ⟨name, parentId, arguments, opened, ?_⟩
          intro read
          exact refused ⟨_, name, parentId, arguments, opened, read, rfl⟩
        · exact .inl opens
  | toolCallResult messageId callId content role => simp [Misplaced, Inbound.Advances]
  | stateSnapshot snapshot => simp [Misplaced, Inbound.Advances]
  | stateDelta delta => simp [Misplaced, Inbound.Advances]

end Shows

namespace Inbound

/-- What a machine knows, told by a history. -/
structure Knows (machine : Inbound) (history : List Event) : Prop where
  shows : Shows history machine.phase
  responseId : machine.responseId = lastTold responseOf? history
  conversationId : machine.conversationId = lastTold conversationOf? history

variable
  {machine next : Inbound}
  {event : Event}
  {events history : List Event}
  {refusal : ClientError}
  {update : Option Chat.Update}

/-- A fresh machine knows what an empty history tells. -/
theorem Knows.nil : Knows {} [] where
  shows := Shows.idle_iff.mpr (by simp [SomethingOpen, TextOpen, CallOpen])
  responseId := rfl
  conversationId := rfl

/-- A response id is the one that an event names, none behind a start without one, or as before. -/
theorem Advances.responseId
    {body : EventBody}
    (advances : machine.Advances next body) :
    next.responseId =
      (responseOf? body).or
        (if body.kind = .runStarted then none else machine.responseId) := by
  cases body with
  | runStarted threadId runId =>
      obtain ⟨-, rfl⟩ := advances
      simp [responseOf?, EventBody.kind]
  | runFinished threadId runId result =>
      obtain ⟨-, rfl⟩ := advances
      simp [responseOf?, EventBody.kind]
  | _ => grind [Advances, responseOf?, EventBody.kind]

/-- So is a conversation id. -/
theorem Advances.conversationId
    {body : EventBody}
    (advances : machine.Advances next body) :
    next.conversationId =
      (conversationOf? body).or
        (if body.kind = .runStarted then none else machine.conversationId) := by
  cases body with
  | runStarted threadId runId =>
      obtain ⟨-, rfl⟩ := advances
      simp [conversationOf?, EventBody.kind]
  | runFinished threadId runId result =>
      obtain ⟨-, rfl⟩ := advances
      simp [conversationOf?, EventBody.kind]
  | _ => grind [Advances, conversationOf?, EventBody.kind]

/-- A machine that takes an event knows the longer history. -/
theorem Knows.concat
    (knows : machine.Knows history)
    (advances : machine.Advances next event.body) :
    next.Knows (history ++ [event]) := by
  refine ⟨knows.shows.concat advances, ?_, ?_⟩
  · rw [advances.responseId, knows.responseId, lastTold_concat, Event.kind]
  · rw [advances.conversationId, knows.conversationId, lastTold_concat, Event.kind]

/-- A machine knows the events that it took, whatever it refused among them. -/
theorem Knows.accepted
    (knows : machine.Knows history) :
    (machine.run events).1.Knows (history ++ machine.accepted events) := by
  induction events generalizing machine history with
  | nil => simpa [run, Inbound.accepted] using knows
  | cons event rest inductionHypothesis =>
      cases applied : machine.apply event with
      | error refusal =>
          simpa [run, Inbound.accepted, applied] using inductionHypothesis knows
      | ok step =>
          obtain ⟨next, update⟩ := step
          have advances := advances_iff.mp ⟨update, applied⟩
          simpa [run, Inbound.accepted, applied] using inductionHypothesis (knows.concat advances)

/-- An event that is refused leaves the machine as it was. -/
theorem run_concat_of_error (refused : (machine.run events).1.apply event = .error refusal) :
    machine.run (events ++ [event]) = machine.run events := by
  induction events generalizing machine with
  | nil =>
      have refused : machine.apply event = .error refusal := refused
      simp [run, refused]
  | cons first rest inductionHypothesis =>
      cases applied : machine.apply first with
      | error other =>
          simp only [run, applied] at refused
          simpa [run, applied] using inductionHypothesis refused
      | ok step =>
          simp only [run, applied] at refused
          simp [run, applied, inductionHypothesis refused]

/--
After any events, those that were taken tell what is open, the arguments collected,
the two identifiers and whether the next event is refused; a refused event changes
nothing.
-/
theorem told_by_history (events : List Event) :
    let machine := (run {} events).1
    let history := accepted {} events
    ((∃ messageId role, machine.phase = .text messageId role) ↔
        ∃ messageId roleName after, TextOpen history messageId roleName after) ∧
      ((∃ callId name parentId arguments,
          machine.phase = .call callId name parentId arguments) ↔
        ∃ callId name parentId after, CallOpen history callId name parentId after) ∧
      ¬((∃ messageId roleName after, TextOpen history messageId roleName after) ∧
        ∃ callId name parentId after, CallOpen history callId name parentId after) ∧
      (∀ messageId roleName after,
        TextOpen history messageId roleName after →
          ∃ role, messageRole roleName = .ok role ∧ machine.phase = .text messageId role) ∧
      (∀ callId name parentId after,
        CallOpen history callId name parentId after →
          machine.phase = .call callId name parentId (argumentsIn after)) ∧
      machine.responseId = lastTold responseOf? history ∧
      machine.conversationId = lastTold conversationOf? history ∧
      ∀ event,
        ((∃ refusal, machine.apply event = .error refusal) ↔ Misplaced history event.body) ∧
          (Misplaced history event.body → run {} (events ++ [event]) = run {} events) := by
  intro machine history
  have knows : machine.Knows history := Knows.nil.accepted
  have shows := knows.shows
  have callOpen callId := shows.exists_callOpen_iff callId fun _ => True
  have misplaced event : Misplaced history event.body ↔
      ∃ refusal, machine.apply event = .error refusal :=
    shows.misplaced_iff.trans apply_error_iff.symm
  simp only [and_true] at callOpen
  refine ⟨?_, ?_, ?_, ?_, ?_, knows.responseId, knows.conversationId, ?_⟩
  · simp [shows.exists_textOpen_iff]
  · simp [callOpen]
  · rintro ⟨⟨messageId, roleName, after, text⟩, callId, name, parentId, later, call⟩
    obtain ⟨role, -, inText⟩ := shows.phase_of_textOpen text
    cases inText.symm.trans (shows.phase_of_callOpen call)
  · intro messageId roleName after
    exact shows.phase_of_textOpen
  · intro callId name parentId after
    exact shows.phase_of_callOpen
  · intro event
    refine ⟨(misplaced event).symm, ?_⟩
    intro refused
    obtain ⟨refusal, refused⟩ := (misplaced event).mp refused
    exact run_concat_of_error refused

end Inbound

end AgentWire.Client

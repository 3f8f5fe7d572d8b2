import AgentWire.Proofs.Server.Arrival
import AgentWire.Server.Encoder
import Mathlib.Data.List.Forall2

namespace AgentWire.Server

/-!
# A client that listens to an encoder

What a client takes for open is what the encoder holds open.  From there on the
client accepts the events of one item after the other, and takes from them the
item as it is sent: custom payloads replaced by their documents, empty texts and
data that is no state left out.
-/

open Chat (ContentItem FunctionCall FunctionResult Registry Update)
open Client (Inbound Phase)

/-- An event that neither starts nor ends a run. -/
def isInner (event : Event) : Bool :=
  event.kind != .runStarted && !event.isTerminal

/-- Events behind the start of a run: only the last one may end it. -/
inductive Within : Bool → List Event → Prop where
  | open {events : List Event} :
      events.all isInner = true →
      Within false events
  | ended {events : List Event} {last : Event} :
      events.all isInner = true →
      last.isTerminal = true →
      Within true (events ++ [last])

theorem all_isInner_append
    {first rest : List Event}
    (firstInner : first.all isInner = true)
    (restInner : rest.all isInner = true) :
    (first ++ rest).all isInner = true := by
  rw [List.all_append, firstInner, restInner]
  rfl

/-- Inner events may come before events of a run. -/
theorem Within.prepend
    {stopped : Bool}
    {first rest : List Event}
    (inner : first.all isInner = true)
    (within : Within stopped rest) :
    Within stopped (first ++ rest) := by
  cases within with
  | «open» others =>
      exact .open (all_isInner_append inner others)
  | ended others terminal =>
      rw [← List.append_assoc]
      exact .ended (all_isInner_append inner others) terminal

/-- What is open for a client is the text that an encoder holds open. -/
def Shows (openText : Option String) (phase : Phase) : Prop :=
  match openText with
  | none => phase = .idle
  | some id => ∃ role, phase = .text id role

/-- The items of some updates, each with the message id of its update. -/
def labelled (updates : List Update) : List (Option String × ContentItem) :=
  updates.flatMap fun update => update.contents.map (update.messageId, ·)

/-- A client has received an item; a text has come under the id of its update, if that has one. -/
def Arrives (sent received : Option String × ContentItem) : Prop :=
  received.2 = sent.2 ∧
    ∀ id words, sent = (some id, .text words) → received.1 = some id

/-- An encoder that has gone on with its run. -/
structure GoesOn (encoder next : Encoder) : Prop where
  threadId : next.threadId = encoder.threadId
  runId : next.runId = encoder.runId
  registry : next.registry = encoder.registry
  started : next.started = encoder.started

/-- An encoder that goes on twice has gone on. -/
theorem GoesOn.trans
    {encoder middle next : Encoder}
    (first : GoesOn encoder middle)
    (second : GoesOn middle next) :
    GoesOn encoder next :=
  ⟨second.threadId.trans first.threadId, second.runId.trans first.runId,
    second.registry.trans first.registry, second.started.trans first.started⟩

/--
A client that has accepted some events of an encoder, and has open what the
encoder holds open behind them.
-/
structure Heard
    (encoder next : Encoder)
    (machine last : Inbound)
    (events : List Event)
    (updates : List Update) :
    Prop where
  followed : machine.follow events = .ok (last, updates)
  shows : Shows next.openText last.phase
  within : Within next.stopped events
  closed : next.stopped = true → next.openText = none
  goesOn : GoesOn encoder next

/-- Whether an item ends the run. -/
def endsRun : ContentItem → Bool
  | .error _ _ => true
  | _ => false

/-- Items up to the first one that ends the run. -/
def throughError : List (Option String × ContentItem) → List (Option String × ContentItem)
  | [] => []
  | sent :: rest => if endsRun sent.2 then [sent] else sent :: throughError rest

/-- What a client receives of some items. -/
def arrivals
    (registry : Registry)
    (items : List (Option String × ContentItem)) :
    List (Option String × ContentItem) :=
  (throughError items).filterMap fun (id, item) => (arrival? registry item).map (id, ·)

/-- Behind an item that ends the run nothing arrives. -/
theorem arrivals_cons
    (registry : Registry)
    (id : Option String)
    (item : ContentItem)
    (rest : List (Option String × ContentItem)) :
    arrivals registry ((id, item) :: rest) =
      (arrival? registry item).toList.map (id, ·) ++
        if endsRun item then [] else arrivals registry rest := by
  cases arrived : arrival? registry item <;>
    by_cases ends : endsRun item = true <;>
    simp [arrivals, throughError, ends, arrived]

theorem labelled_append (first rest : List Update) :
    labelled (first ++ rest) = labelled first ++ labelled rest := by
  simp [labelled]

/-- A client that has accepted the events of an item and received the item. -/
def HeardItem
    (encoder next : Encoder)
    (machine : Inbound)
    (update : Update)
    (item : ContentItem)
    (events : List Event) :
    Prop :=
  ∃ last updates,
    Heard encoder next machine last events updates ∧
      next.stopped = endsRun item ∧
      (Sendable encoder.registry item →
        List.Forall₂ Arrives
          ((arrival? encoder.registry item).toList.map (update.messageId, ·))
          (labelled updates))

namespace Encoder

variable
  {encoder next : Encoder}
  {machine : Inbound}
  {update : Update}

/-- Closing the text forgets only which text is open. -/
theorem closeText_snd (encoder : Encoder) :
    encoder.closeText.2 = { encoder with openText := none } := by
  rcases encoder with ⟨_, _, _, openText, _, _, _, _⟩
  cases openText <;> rfl

/-- A client follows the closing of a text and has nothing open then. -/
theorem closeText_followed
    (shows : Shows encoder.openText machine.phase) :
    machine.follow encoder.closeText.1 = .ok ({ machine with phase := .idle }, []) ∧
      encoder.closeText.1.all isInner = true := by
  cases opened : encoder.openText with
  | none =>
      rw [opened] at shows
      have idle : machine = { machine with phase := .idle } := by
        rw [← (shows : machine.phase = .idle)]
      simp [closeText, opened, ← idle]
  | some id =>
      rw [opened] at shows
      obtain ⟨role, phase⟩ := shows
      have accepted :
          machine.apply (EventBody.textMessageEnd id).toEvent =
            .ok ({ machine with phase := .idle }, none) := by
        simp [Inbound.apply, EventBody.toEvent, Inbound.endText, phase]
      simp only [closeText, opened]
      exact ⟨Inbound.follow_singleton accepted, rfl⟩

/-- The role of a text is one that a client knows. -/
theorem messageRole_textRole (role : Role) :
    Client.messageRole (textRole role).name = .ok (textRole role) := by
  cases role <;> rfl

/-- A client follows the opening of a text and has it open then. -/
theorem openTextOf_followed
    (idle : machine.phase = .idle)
    (encoder : Encoder)
    (update : Update) :
    ∃ id events next,
      encoder.openTextOf update = (id, events, next) ∧
        machine.follow events =
          .ok ({ machine with phase := .text id (textRole update.role) }, []) ∧
        events.all isInner = true ∧
        (∀ given, update.messageId = some given → id = given) ∧
        next.openText = some id ∧ next.stopped = encoder.stopped ∧ GoesOn encoder next := by
  have accepted (id : String) :
      machine.apply
          (EventBody.textMessageStart id (textRole update.role).name).toEvent =
        .ok ({ machine with phase := .text id (textRole update.role) }, none) := by
    simp [Inbound.apply, EventBody.toEvent, Inbound.startText, idle, messageRole_textRole,
      bind, Except.bind]
  refine ⟨_, _, _, rfl, Inbound.follow_singleton (accepted _), rfl, ?_, rfl, rfl,
    rfl, rfl, rfl, rfl⟩
  intro given named
  rw [named]

/-- The client has the text of an update open with the encoder. -/
theorem textFor_followed
    (shows : Shows encoder.openText machine.phase)
    (update : Update) :
    ∃ id events next last role,
      encoder.textFor update = (id, events, next) ∧
        machine.follow events = .ok (last, []) ∧
        last.phase = .text id role ∧
        events.all isInner = true ∧
        (∀ given, update.messageId = some given → id = given) ∧
        next.openText = some id ∧ next.stopped = encoder.stopped ∧ GoesOn encoder next := by
  cases opened : encoder.openText with
  | none =>
      rw [opened] at shows
      obtain ⟨id, events, next, shape, followed, inner, named, nextOpen, stopped, goesOn⟩ :=
        openTextOf_followed shows encoder update
      refine ⟨id, events, next, _, _, ?_, followed, rfl, inner, named, nextOpen, stopped,
        goesOn⟩
      simp [textFor, opened, shape]
  | some current =>
      by_cases same : update.messageId.getD current = current
      · rw [opened] at shows
        obtain ⟨role, phase⟩ := shows
        refine ⟨current, [], encoder, machine, role, ?_, rfl, phase, rfl, ?_, opened, rfl,
          rfl, rfl, rfl, rfl⟩
        · simp [textFor, opened, same]
        · intro given named
          rw [named] at same
          exact same.symm
      · -- The update goes on with another message, so the open text is closed first.
        obtain ⟨closed, closedInner⟩ := closeText_followed shows
        have idle : ({ machine with phase := .idle } : Inbound).phase = .idle :=
          rfl
        obtain ⟨id, events, next, shape, followed, inner, named, nextOpen, stopped, goesOn⟩ :=
          openTextOf_followed idle { encoder with openText := none } update
        refine ⟨id, encoder.closeText.1 ++ events, next, _, _, ?_,
          Inbound.follow_append closed followed, rfl, all_isInner_append closedInner inner,
          named, nextOpen, stopped, goesOn.threadId, goesOn.runId, goesOn.registry,
          goesOn.started⟩
        simp only [textFor, opened, same, if_false]
        rw [closeText_snd, shape]

/-- The update in which a client hands on a call. -/
def callUpdate
    (machine : Inbound)
    (call : FunctionCall)
    (parentId : Option String)
    (arguments : Option Chat.Arguments) :
    Update :=
  { machine.update (EventBody.toolCallEnd call.callId).toEvent .assistant
      [.call { call with arguments }] with messageId := parentId }

/-- A client that has nothing open accepts the start of a call. -/
theorem callStart_accepted
    (idle : machine.phase = .idle)
    (call : FunctionCall)
    (parentId : Option String) :
    machine.apply (EventBody.toolCallStart call.callId call.name parentId).toEvent =
      .ok ({ machine with phase := .call call.callId call.name parentId "" }, none) := by
  simp [Inbound.apply, EventBody.toEvent, Inbound.startCall, idle]

/-- A client follows a call without arguments and hands it on. -/
theorem bareCall_followed
    (idle : machine.phase = .idle)
    (call : FunctionCall)
    (parentId : Option String) :
    machine.follow
        [(EventBody.toolCallStart call.callId call.name parentId).toEvent,
          (EventBody.toolCallEnd call.callId).toEvent] =
      .ok ({ machine with phase := .idle }, [callUpdate machine call parentId none]) := by
  have ended :
      Inbound.apply { machine with phase := .call call.callId call.name parentId "" }
          (EventBody.toolCallEnd call.callId).toEvent =
        .ok ({ machine with phase := .idle }, some (callUpdate machine call parentId none)) := by
    simp [Inbound.apply, EventBody.toEvent, Inbound.endCall, Client.parseArguments,
      Text.isBlankText, callUpdate, Inbound.update, bind, Except.bind]
  exact Inbound.follow_cons (callStart_accepted idle call parentId)
    (Inbound.follow_singleton ended)

/-- The client takes the members of an object as the arguments of a call. -/
theorem fullCall_followed
    {members : List (String × Json)}
    (idle : machine.phase = .idle)
    (whole : (Json.object members).wholeNumbers = true)
    (shallow : (Json.object members).depth ≤ Json.Route.deepest)
    (call : FunctionCall)
    (parentId : Option String) :
    machine.follow
        [(EventBody.toolCallStart call.callId call.name parentId).toEvent,
          (EventBody.toolCallArgs call.callId (Json.object members).text).toEvent,
          (EventBody.toolCallEnd call.callId).toEvent] =
      .ok ({ machine with phase := .idle },
        [callUpdate machine call parentId (some (readArguments members))]) := by
  have collected :
      Inbound.apply { machine with phase := .call call.callId call.name parentId "" }
          (EventBody.toolCallArgs call.callId (Json.object members).text).toEvent =
        .ok ({ machine with
          phase := .call call.callId call.name parentId (Json.object members).text }, none) := by
    simp [Inbound.apply, EventBody.toEvent, Inbound.addArguments]
  have ended :
      Inbound.apply
          { machine with
            phase := .call call.callId call.name parentId (Json.object members).text }
          (EventBody.toolCallEnd call.callId).toEvent =
        .ok ({ machine with phase := .idle },
          some (callUpdate machine call parentId (some (readArguments members)))) := by
    simp [Inbound.apply, EventBody.toEvent, Inbound.endCall,
      Client.parseArguments_text whole shallow, callUpdate, readArguments, Inbound.update,
      bind, Except.bind]
  exact Inbound.follow_cons (callStart_accepted idle call parentId)
    (Inbound.follow_cons collected (Inbound.follow_singleton ended))

/-- The client takes a call as it is written. -/
theorem callEvents_followed
    {call : FunctionCall}
    {events : List Event}
    (idle : machine.phase = .idle)
    (readable : Readable encoder.registry call)
    (encoded : encoder.callEvents call = .ok events) :
    ∃ heard,
      machine.follow events =
          .ok ({ machine with phase := .idle },
            [callUpdate machine call encoder.lastText heard]) ∧
        events.all isInner = true ∧
        ((call.arguments = none ∧ heard = none) ∨
          ∃ arguments members,
            call.arguments = some arguments ∧
              encoder.registry.serializeEntries arguments = .ok members ∧
              heard = some (readArguments members)) := by
  rw [callEvents, argumentEvents] at encoded
  cases made : call.arguments with
  | none =>
      simp only [made, bind, Except.bind, Except.ok.injEq] at encoded
      subst encoded
      exact ⟨none, bareCall_followed idle call encoder.lastText, rfl, .inl ⟨rfl, rfl⟩⟩
  | some arguments =>
      cases entries : encoder.registry.serializeEntries arguments with
      | error problem =>
          simp [made, Registry.serializeArguments, entries, bind, Except.bind] at encoded
      | ok members =>
          have serialized :
              encoder.registry.serializeArguments arguments = .ok (.object members) := by
            simp [Registry.serializeArguments, entries, bind, Except.bind]
          obtain ⟨whole, shallow⟩ := readable arguments _ made serialized
          simp only [made, serialized, bind, Except.bind, Except.ok.injEq] at encoded
          subst encoded
          exact ⟨_, fullCall_followed idle whole shallow call encoder.lastText, rfl,
            .inr ⟨arguments, members, rfl, entries, rfl⟩⟩

/-- A client follows the events of a text and receives it. -/
theorem heardItem_text
    {words : String}
    {events : List Event}
    (running : encoder.stopped = false)
    (shows : Shows encoder.openText machine.phase)
    (encoded : encoder.encodeItem update (.text words) = (.ok events, next)) :
    HeardItem encoder next machine update (.text words) events := by
  -- A text without words is neither sent nor received.
  by_cases empty : words.isEmpty = true
  · simp only [encodeItem, empty, if_true, Prod.mk.injEq, Except.ok.injEq] at encoded
    obtain ⟨rfl, rfl⟩ := encoded
    refine ⟨machine, [], ⟨rfl, shows, ?_, by simp [running], rfl, rfl, rfl, rfl⟩, running, ?_⟩
    · rw [running]
      exact .open rfl
    · intro _
      simp [arrival?, empty, labelled]
  · obtain ⟨id, opening, after, last, role, shape, followed, phase, inner, named, opened,
      stopped, goesOn⟩ := textFor_followed shows update
    simp only [encodeItem, empty, Bool.false_eq_true, if_false, shape, Prod.mk.injEq,
      Except.ok.injEq] at encoded
    obtain ⟨rfl, rfl⟩ := encoded
    have running : after.stopped = false :=
      stopped.trans running
    let heard : Update :=
      { last.update (EventBody.textMessageContent id words).toEvent role [.text words] with
        messageId := some id }
    have accepted :
        last.apply (EventBody.textMessageContent id words).toEvent = .ok (last, some heard) := by
      simp [Inbound.apply, EventBody.toEvent, Inbound.addText, phase, heard, Inbound.update]
    refine ⟨last, [heard],
      ⟨Inbound.follow_append followed (Inbound.follow_singleton accepted), ?_, ?_,
        by simp [running], goesOn⟩, running, ?_⟩
    · rw [opened]
      exact ⟨role, phase⟩
    · rw [running]
      exact .prepend inner (.open rfl)
    · intro _
      have arrives : Arrives (update.messageId, .text words) (some id, .text words) := by
        refine ⟨rfl, ?_⟩
        intro given words' sent
        rw [named given (congrArg Prod.fst sent)]
      simpa [arrival?, empty, labelled, heard, Inbound.update] using arrives

/-- A client follows the events of a call and receives it. -/
theorem heardItem_call
    {call : FunctionCall}
    {events : List Event}
    (running : encoder.stopped = false)
    (shows : Shows encoder.openText machine.phase)
    (readable : Readable encoder.registry call)
    (encoded : encoder.encodeItem update (.call call) = (.ok events, next)) :
    HeardItem encoder next machine update (.call call) events := by
  obtain ⟨closed, closedInner⟩ := closeText_followed shows
  have idle : ({ machine with phase := .idle } : Inbound).phase = .idle :=
    rfl
  simp only [encodeItem, closeText_snd, Prod.mk.injEq] at encoded
  obtain ⟨encoded, rfl⟩ := encoded
  cases written : callEvents { encoder with openText := none } call with
  | error problem =>
      simp [written, Except.map] at encoded
  | ok called =>
      simp only [written, Except.map, Except.ok.injEq] at encoded
      subst encoded
      obtain ⟨heard, followed, inner, argumentsShape⟩ :=
        callEvents_followed idle readable written
      refine ⟨_, _, ⟨Inbound.follow_append closed followed, rfl, ?_, ?_, rfl, rfl, rfl, rfl⟩,
        running, ?_⟩
      · show Within encoder.stopped _
        rw [running]
        exact .open (all_isInner_append closedInner inner)
      · intro _
        rfl
      · intro sendable
        have whole :
            arrival? encoder.registry (.call call) =
              some (.call { call with arguments := heard }) := by
          rcases argumentsShape with
            ⟨bare, rfl⟩ | ⟨arguments, members, made, serialized, rfl⟩
          · simp [arrival?, bare]
          · obtain ⟨sorted, portable⟩ := sendable arguments made
            simp [arrival?, made, readArguments_of_portable sorted portable serialized]
        rw [whole]
        exact .cons ⟨rfl, by simp⟩ .nil

/-- A client follows the event of a result and receives it. -/
theorem heardItem_result
    {result : Chat.FunctionResult}
    {events : List Event}
    (running : encoder.stopped = false)
    (shows : Shows encoder.openText machine.phase)
    (encoded : encoder.encodeItem update (.result result) = (.ok events, next)) :
    HeardItem encoder next machine update (.result result) events := by
  obtain ⟨closed, closedInner⟩ := closeText_followed shows
  simp only [encodeItem, closeText_snd, resultEvent] at encoded
  cases serialized : encoder.registry.serializeContent result.value with
  | error problem =>
      simp [serialized, bind, Except.bind] at encoded
  | ok content =>
      simp only [serialized, bind, Except.bind, Prod.mk.injEq, Except.ok.injEq] at encoded
      obtain ⟨rfl, rfl⟩ := encoded
      refine ⟨_, _, ⟨Inbound.follow_append closed (Inbound.follow_singleton rfl), rfl, ?_, ?_,
        rfl, rfl, rfl, rfl⟩, running, ?_⟩
      · show Within encoder.stopped _
        rw [running]
        exact .open (all_isInner_append closedInner rfl)
      · intro _
        rfl
      · intro portable
        have read := parseResult_of_portable portable serialized
        refine .cons ⟨?_, by simp⟩ .nil
        rw [read]

/-- A client follows the event of an error and receives it. -/
theorem heardItem_error
    {message : String}
    {code : Option String}
    {events : List Event}
    (shows : Shows encoder.openText machine.phase)
    (encoded : encoder.encodeItem update (.error message code) = (.ok events, next)) :
    HeardItem encoder next machine update (.error message code) events := by
  obtain ⟨closed, closedInner⟩ := closeText_followed shows
  simp only [encodeItem, closeText_snd, Prod.mk.injEq, Except.ok.injEq] at encoded
  obtain ⟨rfl, rfl⟩ := encoded
  refine ⟨_, _, ⟨Inbound.follow_append closed (Inbound.follow_singleton rfl), rfl,
    .ended closedInner rfl, fun _ => rfl, rfl, rfl, rfl, rfl⟩, rfl, ?_⟩
  intro _
  exact .cons ⟨rfl, by simp⟩ .nil

/-- The event of the state that some data carries, if it carries one. -/
def stateEvents : Option Chat.StatePayload → List Event
  | none => []
  | some (.snapshot document) => [(EventBody.stateSnapshot (some document)).toEvent]
  | some (.delta patch) => [(EventBody.stateDelta (some patch)).toEvent]

/-- Whatever state a client is sent, it accepts and takes the item of it. -/
theorem state_followed
    (machine : Inbound)
    (state : Option Chat.StatePayload) :
    ∃ updates,
      machine.follow (stateEvents state) = .ok (machine, updates) ∧
        labelled updates = (stateItem? state).toList.map (none, ·) := by
  rcases state with _ | document | patch
  · exact ⟨[], rfl, rfl⟩
  · cases document with
    | null =>
        exact ⟨[], rfl, rfl⟩
    | bool | number | string | array | object =>
        exact ⟨_, Inbound.follow_singleton rfl, rfl⟩
  · exact ⟨_, Inbound.follow_singleton rfl, rfl⟩

/-- A client follows the event of a state and receives it, and hears nothing of other data. -/
theorem heardItem_data
    {mediaType : String}
    {bytes : Text.Bytes}
    {events : List Event}
    (running : encoder.stopped = false)
    (shows : Shows encoder.openText machine.phase)
    (encoded : encoder.encodeItem update (.data mediaType bytes) = (.ok events, next)) :
    HeardItem encoder next machine update (.data mediaType bytes) events := by
  cases decoded : Chat.decodeState (.data mediaType bytes) with
  | error problem =>
      simp [encodeItem, decoded] at encoded
  | ok state =>
      have written : encoder.encodeItem update (.data mediaType bytes) =
          (.ok (stateEvents state), encoder) := by
        rcases state with _ | document | patch <;>
          simp [encodeItem, decoded, stateEvents]
      have inner : (stateEvents state).all isInner = true := by
        rcases state with _ | document | patch <;>
          rfl
      -- A state leaves an open text open, on both sides.
      rw [written, Prod.mk.injEq, Except.ok.injEq] at encoded
      obtain ⟨rfl, rfl⟩ := encoded
      obtain ⟨updates, followed, received⟩ := state_followed machine state
      refine ⟨machine, updates, ⟨followed, shows, ?_, ?_, rfl, rfl, rfl, rfl⟩, running, ?_⟩
      · rw [running]
        exact .open inner
      · simp [running]
      · intro sendable
        rw [received, ← arrival?_of_decodeState sendable decoded]
        cases item : arrival? encoder.registry (.data mediaType bytes) with
        | none =>
            exact .nil
        | some sent =>
            have shape : sent = .data mediaType bytes := by
              rw [arrival?] at item
              split at item <;>
                cases item
              rfl
            rw [shape]
            exact .cons ⟨rfl, by simp⟩ .nil

/-- A client accepts the events of an item and receives the item. -/
theorem heardItem_of_encodeItem
    {item : ContentItem}
    {events : List Event}
    (running : encoder.stopped = false)
    (shows : Shows encoder.openText machine.phase)
    (readable : ∀ call, item = .call call → Readable encoder.registry call)
    (encoded : encoder.encodeItem update item = (.ok events, next)) :
    HeardItem encoder next machine update item events := by
  cases item with
  | text words =>
      exact heardItem_text running shows encoded
  | error message code =>
      exact heardItem_error shows encoded
  | call made =>
      exact heardItem_call running shows (readable made rfl) encoded
  | result given =>
      exact heardItem_result running shows encoded
  | data mediaType bytes =>
      exact heardItem_data running shows encoded

/-- What is heard of one part and then of another is heard of both. -/
theorem heard_append
    {middle : Encoder}
    {between last : Inbound}
    {first rest : List Event}
    {updates more : List Update}
    (before : Heard encoder middle machine between first updates)
    (running : middle.stopped = false)
    (after : Heard middle next between last rest more) :
    Heard encoder next machine last (first ++ rest) (updates ++ more) where
  followed := Inbound.follow_append before.followed after.followed
  shows := after.shows
  within := by
    have inner := before.within
    rw [running] at inner
    cases inner with
    | «open» inner =>
        exact after.within.prepend inner
  closed := after.closed
  goesOn := before.goesOn.trans after.goesOn

/-- Items are encoded up to the first one at which the encoder stops. -/
theorem encodeItems_cons_ok
    {item : ContentItem}
    {rest : List ContentItem}
    {events : List Event}
    (encoded : encoder.encodeItems update (item :: rest) = (.ok events, next)) :
    ∃ first middle,
      encoder.encodeItem update item = (.ok first, middle) ∧
        ((middle.stopped = true ∧ events = first ∧ next = middle) ∨
          (middle.stopped = false ∧
            ∃ more,
              middle.encodeItems update rest = (.ok more, next) ∧ events = first ++ more)) := by
  rw [encodeItems] at encoded
  cases written : encoder.encodeItem update item with
  | mk result middle =>
      cases result with
      | error problem =>
          simp [written] at encoded
      | ok first =>
          refine ⟨first, middle, rfl, ?_⟩
          cases stopped : middle.stopped with
          | true =>
              simp only [written, stopped, if_true, Prod.mk.injEq, Except.ok.injEq] at encoded
              exact .inl ⟨rfl, encoded.1.symm, encoded.2.symm⟩
          | false =>
              cases others : middle.encodeItems update rest with
              | mk result after =>
                  simp only [written, stopped, others, Bool.false_eq_true, if_false,
                    Prod.mk.injEq] at encoded
                  obtain ⟨encoded, rfl⟩ := encoded
                  cases result with
                  | error problem =>
                      simp [Except.map] at encoded
                  | ok more =>
                      simp only [Except.map, Except.ok.injEq] at encoded
                      exact .inr ⟨rfl, more, rfl, encoded.symm⟩

/-- A client accepts the events of items and receives the items. -/
theorem heard_of_encodeItems
    {items : List ContentItem}
    {events : List Event}
    (running : encoder.stopped = false)
    (shows : Shows encoder.openText machine.phase)
    (readable : ∀ call, .call call ∈ items → Readable encoder.registry call)
    (encoded : encoder.encodeItems update items = (.ok events, next)) :
    ∃ last updates,
      Heard encoder next machine last events updates ∧
        next.stopped = items.any endsRun ∧
        ((∀ item ∈ items, Sendable encoder.registry item) →
          List.Forall₂ Arrives
            (arrivals encoder.registry (items.map (update.messageId, ·)))
            (labelled updates)) := by
  induction items generalizing encoder machine events with
  | nil =>
      simp only [encodeItems, Prod.mk.injEq, Except.ok.injEq] at encoded
      obtain ⟨rfl, rfl⟩ := encoded
      refine ⟨machine, [], ⟨rfl, shows, ?_, by simp [running], rfl, rfl, rfl, rfl⟩,
        running, fun _ => .nil⟩
      rw [running]
      exact .open rfl
  | cons item rest inductionHypothesis =>
      obtain ⟨first, middle, written, behind⟩ := encodeItems_cons_ok encoded
      obtain ⟨between, updates, heard, stopped, received⟩ :=
        heardItem_of_encodeItem running shows
          (fun call shape => readable call (by simp [shape])) written
      -- An item that ends the run is the last one that is sent.
      rcases behind with ⟨ended, rfl, rfl⟩ | ⟨goesOn, more, others, rfl⟩
      · have ends : endsRun item = true :=
          stopped.symm.trans ended
        refine ⟨between, updates, heard, by simp [ended, ends], ?_⟩
        intro sendable
        rw [List.map_cons, arrivals_cons, if_pos ends, List.append_nil]
        exact received (sendable item (by simp))
      · have continues : endsRun item = false :=
          stopped.symm.trans goesOn
        have sameRegistry := heard.goesOn.registry
        obtain ⟨last, later, heardRest, stoppedRest, receivedRest⟩ :=
          inductionHypothesis goesOn heard.shows
            (fun call member => sameRegistry ▸ readable call (by simp [member])) others
        refine ⟨last, updates ++ later, heard_append heard goesOn heardRest,
          by simp [stoppedRest, continues], ?_⟩
        intro sendable
        rw [List.map_cons, arrivals_cons, continues, labelled_append]
        rw [sameRegistry] at receivedRest
        exact List.rel_append (received (sendable item (by simp)))
          (receivedRest fun other member => sendable other (by simp [member]))

end Encoder

end AgentWire.Server

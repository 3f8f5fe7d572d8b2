import AgentWire.Proofs.Server.Encoder
import AgentWire.Server.EventStream

namespace AgentWire.Server

/-!
# Clients accept what servers send

Whatever calls are made to an encoder, in any order, the events that it gives
are accepted by a client that has heard nothing before.  They start with the
start of the run, and nothing follows the event that ends it.  The streams that
are made of updates are such runs, also when an update cannot be encoded.
-/

open Chat (ContentItem Registry Update)
open Client (Inbound)

/-- A call to an encoder. -/
inductive Call where
  | start
  | encode (update : Update)
  | finish (result : Option Json)

namespace Call

/-- Whether a call ends the run. -/
def settles : Call → Bool
  | .start => false
  | .encode update => update.contents.any endsRun
  | .finish _ => true

end Call

/-- The calls of an update can be read back once they are written. -/
def ReadableUpdate (registry : Registry) (update : Update) : Prop :=
  ∀ call, .call call ∈ update.contents → Readable registry call

namespace Encoder

/-- The events of one call. -/
def perform (encoder : Encoder) : Call → Except ServerError (List Event) × Encoder
  | .start =>
      let (events, encoder) := encoder.start
      (.ok events, encoder)
  | .encode update => encoder.encode update
  | .finish result =>
      let (events, encoder) := encoder.finish result
      (.ok events, encoder)

/-- The events of some calls, if each of them gives events. -/
def performAll (encoder : Encoder) : List Call → Except ServerError (List Event × Encoder)
  | [] => .ok ([], encoder)
  | call :: rest =>
      match encoder.perform call with
      | (.error error, _) => .error error
      | (.ok events, encoder) => do
          let (more, last) ← encoder.performAll rest
          .ok (events ++ more, last)

/-- Calls give events when the first one does, and the others do from there on. -/
theorem performAll_cons_ok
    {encoder last : Encoder}
    {call : Call}
    {rest : List Call}
    {events : List Event}
    (performed : encoder.performAll (call :: rest) = .ok (events, last)) :
    ∃ first middle more,
      encoder.perform call = (.ok first, middle) ∧
        middle.performAll rest = .ok (more, last) ∧
        events = first ++ more := by
  rw [performAll] at performed
  cases one : encoder.perform call with
  | mk result middle =>
      cases result with
      | error error =>
          simp [one] at performed
      | ok first =>
          cases others : middle.performAll rest with
          | error error =>
              simp [one, others, bind, Except.bind] at performed
          | ok outcome =>
              simp only [one, others, bind, Except.bind, Except.ok.injEq,
                Prod.mk.injEq] at performed
              obtain ⟨rfl, rfl⟩ := performed
              exact ⟨first, middle, outcome.1, rfl, others, rfl⟩

end Encoder

/--
A client that has accepted all events of an encoder from the start of the run,
and has open what the encoder holds open.
-/
structure Followed
    (encoder : Encoder)
    (events : List Event)
    (machine : Inbound)
    (updates : List Update) :
    Prop where
  followed : Inbound.follow {} events = .ok (machine, updates)
  shows : Shows encoder.openText machine.phase
  closed : encoder.stopped = true → encoder.openText = none
  run :
    (encoder.started = false ∧ encoder.stopped = false ∧ events = []) ∨
      (encoder.started = true ∧
        ∃ rest,
          events = (EventBody.runStarted encoder.threadId encoder.runId).toEvent :: rest ∧
            Within encoder.stopped rest)

namespace Followed

variable
  {encoder next : Encoder}
  {machine last : Inbound}
  {events more : List Event}
  {updates received : List Update}

/-- Before its first call, an encoder has given no events. -/
theorem fresh
    (threadId runId : String)
    (registry : Registry)
    (supply : IdSupply) :
    Followed { threadId, runId, registry, supply } [] {} [] :=
  ⟨rfl, rfl, by simp, .inl ⟨rfl, rfl, rfl⟩⟩

/-- A run that has started and goes on is followed through more events. -/
theorem hear
    (before : Followed encoder events machine updates)
    (started : encoder.started = true)
    (running : encoder.stopped = false)
    (heard : Heard encoder next machine last more received) :
    Followed next (events ++ more) last (updates ++ received) := by
  refine ⟨Inbound.follow_append before.followed heard.followed, heard.shows, heard.closed, ?_⟩
  rcases before.run with ⟨unstarted, -⟩ | ⟨-, rest, shape, within⟩
  · rw [started] at unstarted
    cases unstarted
  · rw [running] at within
    cases within with
    | «open» inner =>
        refine .inr ⟨heard.goesOn.started.trans started, rest ++ more, ?_,
          heard.within.prepend inner⟩
        rw [shape, heard.goesOn.threadId, heard.goesOn.runId]
        rfl

/-- A run that is started is followed, and nothing is received by this. -/
theorem start
    (before : Followed encoder events machine updates) :
    ∃ machine' received,
      Followed encoder.start.2 (events ++ encoder.start.1) machine' (updates ++ received) ∧
        labelled received = [] ∧
        encoder.start.2.started = true ∧
        encoder.start.2.stopped = encoder.stopped ∧
        encoder.start.2.registry = encoder.registry := by
  rcases before.run with ⟨unstarted, running, shape⟩ | ⟨started, rest, shape, within⟩
  · have starts :
        encoder.start =
          ([(EventBody.runStarted encoder.threadId encoder.runId).toEvent],
            { encoder with started := true }) := by
      simp [Encoder.start, unstarted, running]
    have followed := before.followed
    rw [shape, Inbound.follow_nil, Except.ok.injEq, Prod.mk.injEq] at followed
    obtain ⟨rfl, rfl⟩ := followed
    rw [starts, shape]
    have within : Within encoder.stopped [] := by
      rw [running]
      exact .open rfl
    exact ⟨_, _,
      ⟨Inbound.follow_singleton rfl, before.shows, before.closed, .inr ⟨rfl, [], rfl, within⟩⟩,
      rfl, rfl, rfl, rfl⟩
  · have silent : encoder.start = ([], encoder) := by
      simp [Encoder.start, started]
    rw [silent]
    refine ⟨machine, [], ?_, rfl, started, rfl, rfl⟩
    rwa [List.append_nil, List.append_nil]

/-- An update that is encoded is followed, and what arrives of it is received. -/
theorem encode
    {update : Update}
    (before : Followed encoder events machine updates)
    (readable : ReadableUpdate encoder.registry update)
    (encoded : encoder.encode update = (.ok more, next)) :
    ∃ last received,
      Followed next (events ++ more) last (updates ++ received) ∧
        next.registry = encoder.registry ∧
        next.started = true ∧
        next.stopped = (encoder.stopped || update.contents.any endsRun) ∧
        (encoder.stopped = false →
          (∀ item ∈ update.contents, Sendable encoder.registry item) →
          List.Forall₂ Arrives (arrivals encoder.registry (labelled [update]))
            (labelled received)) := by
  obtain ⟨middle, starting, start, silent, started, stopped, registry⟩ := before.start
  simp only [Encoder.encode] at encoded
  by_cases ended : encoder.stopped = true
  · rw [ended] at stopped
    simp only [stopped, if_true, Prod.mk.injEq, Except.ok.injEq] at encoded
    obtain ⟨rfl, rfl⟩ := encoded
    exact ⟨middle, starting, start, registry, started, by simp [stopped, ended], by simp [ended]⟩
  · have running : encoder.start.2.stopped = false := by
      simpa [ended] using stopped
    cases written : encoder.start.2.encodeItems update update.contents with
    | mk result after =>
        simp only [running, written, Bool.false_eq_true, if_false, Prod.mk.injEq] at encoded
        obtain ⟨encoded, rfl⟩ := encoded
        cases result with
        | error problem =>
            cases encoded
        | ok rest =>
            cases encoded
            obtain ⟨last, received, heard, settled, arrived⟩ :=
              Encoder.heard_of_encodeItems running start.shows
                (fun call member => registry ▸ readable call member) written
            refine ⟨last, starting ++ received, ?_, ?_, ?_, ?_, ?_⟩
            · rw [← List.append_assoc, ← List.append_assoc]
              exact start.hear started running heard
            · exact heard.goesOn.registry.trans registry
            · exact heard.goesOn.started.trans started
            · simp [settled, ended]
            · intro _ sendable
              rw [labelled_append, silent, List.nil_append, ← registry]
              have sent : labelled [update] = update.contents.map (update.messageId, ·) := by
                simp [labelled]
              rw [sent]
              exact arrived fun item member => registry ▸ sendable item member

/-- A run that is finished is followed to its end. -/
theorem finish
    (before : Followed encoder events machine updates)
    (result : Option Json) :
    ∃ last received,
      Followed (encoder.finish result).2 (events ++ (encoder.finish result).1) last
          (updates ++ received) ∧
        (encoder.finish result).2.registry = encoder.registry ∧
        (encoder.finish result).2.started = true ∧
        (encoder.finish result).2.stopped = true ∧
        (result = none → labelled received = []) := by
  obtain ⟨middle, starting, start, silent, started, stopped, registry⟩ := before.start
  simp only [Encoder.finish]
  -- Behind the end of the run nothing more is sent.
  by_cases ended : encoder.stopped = true
  · rw [ended] at stopped
    simp only [stopped, if_true]
    exact ⟨middle, starting, start, registry, started, trivial, fun _ => silent⟩
  · have running : encoder.start.2.stopped = false := by
      simpa [ended] using stopped
    obtain ⟨closed, closedInner⟩ := Encoder.closeText_followed start.shows
    have finished :
        ∃ last update,
          Inbound.apply { middle with phase := .idle }
              (EventBody.runFinished encoder.start.2.threadId encoder.start.2.runId
                result).toEvent =
            .ok (last, some update) ∧
            last.phase = .idle ∧
            update.contents = result.toList.map fun value => ContentItem.text value.text :=
      ⟨_, _, rfl, rfl, rfl⟩
    obtain ⟨last, update, accepted, idle, contents⟩ := finished
    have heard :
        Heard encoder.start.2 { encoder.start.2 with openText := none, stopped := true } middle
          last
          (encoder.start.2.closeText.1 ++
            [(EventBody.runFinished encoder.start.2.threadId encoder.start.2.runId
              result).toEvent])
          [update] :=
      ⟨Inbound.follow_append closed (Inbound.follow_singleton accepted), idle,
        .ended closedInner rfl, fun _ => rfl, rfl, rfl, rfl, rfl⟩
    have heardAll := start.hear started running heard
    rw [List.append_assoc, List.append_assoc] at heardAll
    simp only [running, Bool.false_eq_true, if_false, Encoder.closeText_snd, List.append_assoc]
    refine ⟨last, starting ++ [update], heardAll, registry, started, trivial, ?_⟩
    rintro rfl
    rw [labelled_append, silent]
    simp [labelled, contents]

/-- A call that gives events is followed. -/
theorem perform
    {call : Call}
    (before : Followed encoder events machine updates)
    (readable : ∀ update, call = .encode update → ReadableUpdate encoder.registry update)
    (performed : encoder.perform call = (.ok more, next)) :
    ∃ last received,
      Followed next (events ++ more) last (updates ++ received) ∧
        next.registry = encoder.registry ∧
        next.stopped = (encoder.stopped || call.settles) := by
  cases call with
  | start =>
      simp only [Encoder.perform, Prod.mk.injEq, Except.ok.injEq] at performed
      obtain ⟨rfl, rfl⟩ := performed
      obtain ⟨last, received, followed, -, -, stopped, registry⟩ := before.start
      exact ⟨last, received, followed, registry, by simp [stopped, Call.settles]⟩
  | encode update =>
      obtain ⟨last, received, followed, registry, -, stopped, -⟩ :=
        before.encode (readable update rfl) performed
      exact ⟨last, received, followed, registry, stopped⟩
  | finish result =>
      simp only [Encoder.perform, Prod.mk.injEq, Except.ok.injEq] at performed
      obtain ⟨rfl, rfl⟩ := performed
      obtain ⟨last, received, followed, registry, -, stopped, -⟩ := before.finish result
      exact ⟨last, received, followed, registry, by simp [stopped, Call.settles]⟩

/-- Calls that all give events are followed one behind the other. -/
theorem performAll
    {calls : List Call}
    (before : Followed encoder events machine updates)
    (readable : ∀ update, .encode update ∈ calls → ReadableUpdate encoder.registry update)
    (performed : encoder.performAll calls = .ok (more, next)) :
    ∃ last received,
      Followed next (events ++ more) last (updates ++ received) ∧
        next.stopped = (encoder.stopped || calls.any Call.settles) := by
  induction calls generalizing encoder events machine updates more with
  | nil =>
      simp only [Encoder.performAll, Except.ok.injEq, Prod.mk.injEq] at performed
      obtain ⟨rfl, rfl⟩ := performed
      refine ⟨machine, [], ?_, by simp⟩
      rwa [List.append_nil, List.append_nil]
  | cons call rest inductionHypothesis =>
      obtain ⟨first, middle, behind, one, others, rfl⟩ :=
        Encoder.performAll_cons_ok performed
      obtain ⟨between, received, followed, registry, stopped⟩ :=
        before.perform (fun update shape => readable update (by simp [shape])) one
      obtain ⟨last, further, followedAll, stoppedAll⟩ :=
        inductionHypothesis followed
          (fun update member => registry ▸ readable update (by simp [member])) others
      refine ⟨last, received ++ further, ?_, ?_⟩
      · rwa [← List.append_assoc, ← List.append_assoc]
      · rw [stoppedAll, stopped, List.any_cons, Bool.or_assoc]

/-- Behind the end of a run nothing is open for the client. -/
theorem idle
    (before : Followed encoder events machine updates)
    (ended : encoder.stopped = true) :
    machine.phase = .idle := by
  have shows := before.shows
  rwa [before.closed ended] at shows

end Followed

/--
Events of a run that a client accepts when it has heard nothing before: only the
first one starts the run, and only the last one may end it.
-/
structure Accepted (events : List Event) (machine : Inbound) : Prop where
  followed : ∃ updates, Inbound.follow {} events = .ok (machine, updates)
  startsRun : ∀ event ∈ events.head?, event.kind = .runStarted
  startsOnce : ∀ event ∈ events.tail, event.kind ≠ .runStarted
  endsLast : ∀ event ∈ events.dropLast, event.isTerminal = false

/-- An inner event neither starts nor ends a run. -/
theorem of_all_isInner
    {events : List Event}
    {event : Event}
    (inner : events.all isInner = true)
    (member : event ∈ events) :
    event.kind ≠ .runStarted ∧ event.isTerminal = false := by
  have fact := List.all_eq_true.mp inner event member
  rw [isInner, Bool.and_eq_true] at fact
  simpa using fact

/-- The start of a run and events behind it that a client follows are accepted. -/
theorem accepted_of_within
    {stopped : Bool}
    {threadId runId : String}
    {rest : List Event}
    {machine : Inbound}
    {updates : List Update}
    (within : Within stopped rest)
    (followed :
      Inbound.follow {} ((EventBody.runStarted threadId runId).toEvent :: rest) =
        .ok (machine, updates)) :
    Accepted ((EventBody.runStarted threadId runId).toEvent :: rest) machine := by
  have starts : (EventBody.runStarted threadId runId).toEvent.isTerminal = false :=
    rfl
  refine ⟨⟨updates, followed⟩, ?_, ?_, ?_⟩
  · rintro event found
    cases found
    rfl
  · intro event member
    cases within with
    | «open» inner =>
        exact (of_all_isInner inner member).1
    | @ended events last inner terminal =>
        rcases List.mem_append.mp member with member | member
        · exact (of_all_isInner inner member).1
        · cases List.mem_singleton.mp member
          intro shape
          rw [Event.isTerminal, shape] at terminal
          cases terminal
  · intro event member
    cases within with
    | «open» inner =>
        rcases List.mem_cons.mp (List.dropLast_subset _ member) with rfl | member
        · exact starts
        · exact (of_all_isInner inner member).2
    | @ended events last inner terminal =>
        rw [← List.cons_append, List.dropLast_concat] at member
        rcases List.mem_cons.mp member with rfl | member
        · exact starts
        · exact (of_all_isInner inner member).2

/-- What was followed from the start is accepted by a client that has heard nothing before. -/
theorem Followed.accepted
    {encoder : Encoder}
    {events : List Event}
    {machine : Inbound}
    {updates : List Update}
    (before : Followed encoder events machine updates) :
    Accepted events machine := by
  have followed := before.followed
  rcases before.run with ⟨-, -, rfl⟩ | ⟨-, rest, rfl, within⟩
  · exact ⟨⟨updates, followed⟩, by simp, by simp, by simp⟩
  · exact accepted_of_within within followed

/-- Events of a complete run that a client accepts. -/
structure Complete (events : List Event) (machine : Inbound) : Prop where
  accepted : Accepted events machine
  idle : machine.phase = .idle
  starts : events.head?.map Event.kind = some .runStarted
  ends : events.getLast?.map Event.isTerminal = some true

/-- The start of a run and events behind it up to its end are complete. -/
theorem complete_of_within
    {threadId runId : String}
    {rest : List Event}
    {machine : Inbound}
    {updates : List Update}
    (within : Within true rest)
    (followed :
      Inbound.follow {} ((EventBody.runStarted threadId runId).toEvent :: rest) =
        .ok (machine, updates))
    (idle : machine.phase = .idle) :
    Complete ((EventBody.runStarted threadId runId).toEvent :: rest) machine := by
  refine ⟨accepted_of_within within followed, idle, rfl, ?_⟩
  cases within with
  | ended inner terminal =>
      rw [← List.cons_append, List.getLast?_concat]
      simp [terminal]

/-- What was followed up to the end of the run is complete. -/
theorem Followed.complete
    {encoder : Encoder}
    {events : List Event}
    {machine : Inbound}
    {updates : List Update}
    (before : Followed encoder events machine updates)
    (ended : encoder.stopped = true) :
    Complete events machine := by
  have followed := before.followed
  rcases before.run with ⟨-, running, -⟩ | ⟨-, rest, rfl, within⟩
  · rw [ended] at running
    cases running
  · rw [ended] at within
    exact complete_of_within within followed (before.idle ended)

/-- A run that goes on is complete behind an error. -/
theorem Followed.fail
    {encoder : Encoder}
    {events : List Event}
    {machine : Inbound}
    {updates : List Update}
    (before : Followed encoder events machine updates)
    (started : encoder.started = true)
    (running : encoder.stopped = false)
    (error : ServerError) :
    ∃ last, Complete (events ++ [EventStream.encodingError error]) last := by
  rcases before.run with ⟨unstarted, -⟩ | ⟨-, rest, shape, within⟩
  · rw [started] at unstarted
    cases unstarted
  · rw [running] at within
    cases within with
    | «open» inner =>
        have accepted :
            ∃ last update,
              machine.apply (EventStream.encodingError error) = .ok (last, some update) ∧
                last.phase = .idle :=
          ⟨_, _, rfl, rfl⟩
        obtain ⟨last, update, accepted, idle⟩ := accepted
        have followed :=
          Inbound.follow_append before.followed (Inbound.follow_singleton accepted)
        rw [shape, List.cons_append] at followed ⊢
        exact ⟨last, complete_of_within (.ended inner rfl) followed idle⟩

namespace EventStream

/-- The rest of a run that goes on completes it, also when an update cannot be encoded. -/
theorem encodeUpdates_complete
    {items : List (Timed Update)}
    {encoder : Encoder}
    {events : List Event}
    {machine : Inbound}
    {received : List Update}
    (before : Followed encoder events machine received)
    (started : encoder.started = true)
    (running : encoder.stopped = false)
    (readable : ∀ update, .arrival update ∈ items → ReadableUpdate encoder.registry update) :
    ∃ last, Complete (events ++ (encodeUpdates encoder items).1.events) last := by
  induction items generalizing encoder events machine received with
  | nil =>
      obtain ⟨last, more, followed, -, -, stopped, -⟩ := before.finish none
      simp only [encodeUpdates, events_arrivals]
      exact ⟨last, followed.complete stopped⟩
  | cons item rest inductionHypothesis =>
      cases item with
      | pause milliseconds =>
          have later :=
            inductionHypothesis before started running
              fun update member => readable update (by simp [member])
          simpa [encodeUpdates, EventStream.events] using later
      | arrival update =>
          cases written : encoder.encode update with
          | mk result next =>
              cases result with
              | error error =>
                  -- Its own events are dropped; the error ends what the client has open.
                  simp only [encodeUpdates, written]
                  exact before.fail started running error
              | ok more =>
                  obtain ⟨last, further, followed, registry, nextStarted, -, -⟩ :=
                    before.encode (readable update (by simp)) written
                  by_cases ended : next.stopped = true
                  · simp only [encodeUpdates, written, ended, if_true, events_arrivals]
                    exact ⟨last, followed.complete ended⟩
                  · have goesOn : next.stopped = false := by
                      simpa using ended
                    have later :=
                      inductionHypothesis followed nextStarted goesOn
                        fun update member => registry ▸ readable update (by simp [member])
                    simp only [encodeUpdates, written, goesOn, Bool.false_eq_true, if_false,
                      events_append, events_arrivals]
                    rwa [← List.append_assoc]

/-- The stream of updates is a complete run. -/
theorem ofUpdates_complete
    (threadId runId : String)
    (registry : Registry)
    (supply : IdSupply)
    {items : List (Timed Update)}
    (readable : ∀ update, .arrival update ∈ items → ReadableUpdate registry update) :
    ∃ machine, Complete (ofUpdates threadId runId registry items supply).1.events machine := by
  obtain ⟨machine, received, followed, -, started, running, sameRegistry⟩ :=
    (Followed.fresh threadId runId registry supply).start
  have complete :=
    encodeUpdates_complete followed started running
      fun update member => sameRegistry ▸ readable update member
  simp only [ofUpdates, events_append, events_arrivals]
  exact complete

end EventStream

/--
Whatever calls are made to an encoder, as long as each of them gives events: a
client that has heard nothing accepts all of them, only the first one starts the
run, nothing follows one that ends it, and once the end or an error was among
the calls the client has nothing open.  A stream that is made of updates is in
addition complete, also when an update cannot be encoded.
-/
theorem client_accepts_server
    (threadId runId : String)
    (registry : Registry)
    (supply : IdSupply) :
    (∀ calls events last,
      (∀ update, .encode update ∈ calls → ReadableUpdate registry update) →
      Encoder.performAll { threadId, runId, registry, supply } calls = .ok (events, last) →
      ∃ machine,
        Accepted events machine ∧
          (calls.any Call.settles = true → machine.phase = .idle)) ∧
      ∀ items : List (Timed Update),
        (∀ update, .arrival update ∈ items → ReadableUpdate registry update) →
        ∃ machine,
          Complete (EventStream.ofUpdates threadId runId registry items supply).1.events
            machine := by
  refine ⟨?_, ?_⟩
  · intro calls events last readable performed
    obtain ⟨machine, received, followed, stopped⟩ :=
      (Followed.fresh threadId runId registry supply).performAll readable performed
    rw [List.nil_append] at followed
    refine ⟨machine, followed.accepted, ?_⟩
    intro settled
    exact followed.idle (by simp [stopped, settled])
  · intro items readable
    exact EventStream.ofUpdates_complete threadId runId registry supply readable

/-- A registry of points. -/
def pointRegistry : Registry :=
  Registry.empty.register ⟨"Point", .ok⟩

/-- Updates with every kind of item, and with a state and a change of it. -/
def mixedUpdates : List Update :=
  [{ role := .assistant
     contents := [.text "Hello", .text "", .data "image/png" [1]]
     messageId := some "message" },
   { role := .assistant
     contents :=
       [.call ⟨"first", "plot", some [("at", .custom ⟨"Point", 0, .array [.word 1, .word 2]⟩)]⟩,
        .call ⟨"second", "stop", none⟩,
        .result ⟨"first", .json .null⟩] },
   { role := .assistant
     contents :=
       [Chat.encodeSnapshot (.object [("turns", .word 1)]),
        Chat.encodeDelta [.replace "/turns" (.word 2)]] },
   { role := .assistant, contents := [.error "late" (some "timeout"), .text "never"] }]

/-- A client receives every item of these updates as it was sent. -/
theorem mixedUpdates_sendable :
    ∀ update ∈ mixedUpdates, ∀ item ∈ update.contents, Sendable pointRegistry item := by
  have point : Portable (.array [.word 1, .word 2]) :=
    ⟨by decide, by decide, by decide⟩
  have null : Portable .null :=
    ⟨by decide, by decide, by decide⟩
  have state : Portable (.object [("turns", .word 1)]) :=
    ⟨by decide, by decide, by decide⟩
  have count : Portable (.word 2) :=
    ⟨by decide, by decide, by decide⟩
  intro update member item itemMember
  simp only [mixedUpdates, List.mem_cons, List.not_mem_nil, or_false] at member
  rcases member with rfl | rfl | rfl | rfl <;>
    simp only [List.mem_cons, List.not_mem_nil, or_false] at itemMember
  · rcases itemMember with rfl | rfl | rfl
    · trivial
    · trivial
    · exact .inl ⟨by decide, by decide⟩
  · rcases itemMember with rfl | rfl | rfl
    · intro arguments made
      cases made
      refine ⟨rfl, ?_⟩
      intro entry entryMember document serialized
      cases List.mem_singleton.mp entryMember
      cases serialized
      exact point
    · intro arguments made
      cases made
    · intro document serialized
      cases serialized
      exact null
  · rcases itemMember with rfl | rfl
    · exact .inr (.inl ⟨_, by decide, state, rfl⟩)
    · refine .inr (.inr ⟨[.replace "/turns" (.word 2)], ?_, rfl⟩)
      intro operation operationMember value carried
      cases List.mem_singleton.mp operationMember
      cases carried
      exact count
  · rcases itemMember with rfl | rfl
    · trivial
    · trivial

/-- The encoder takes all of these updates. -/
theorem mixedUpdates_encoded :
    ∃ events last,
      Encoder.performAll { threadId := "thread", runId := "run", registry := pointRegistry }
          (mixedUpdates.map .encode ++ [.finish none]) =
        .ok (events, last) := by
  cases made :
    Encoder.performAll { threadId := "thread", runId := "run", registry := pointRegistry }
      (mixedUpdates.map .encode ++ [.finish none]) with
  | ok given =>
      exact ⟨given.1, given.2, rfl⟩
  | error problem =>
      have encoded :
          (Encoder.performAll
            { threadId := "thread", runId := "run", registry := pointRegistry }
            (mixedUpdates.map .encode ++ [.finish none])).isOk = true := by
        decide +kernel
      rw [made] at encoded
      cases encoded

/-- Updates with every kind of item, also where one of the calls cannot be encoded. -/
theorem client_accepts_server_mixed :
    (∃ events last machine,
      Encoder.performAll { threadId := "thread", runId := "run", registry := pointRegistry }
          (mixedUpdates.map .encode ++ [.finish none]) =
        .ok (events, last) ∧
        Accepted events machine ∧ machine.phase = .idle) ∧
      ∃ machine,
        Complete
          (EventStream.ofUpdates "thread" "run" .empty (mixedUpdates.map .arrival) {}).1.events
          machine := by
  refine ⟨?_, ?_⟩
  · have readable :
        ∀ update, .encode update ∈ mixedUpdates.map Call.encode ++ [.finish none] →
          ReadableUpdate pointRegistry update := by
      intro update member call inUpdate
      have listed : update ∈ mixedUpdates := by
        simpa using member
      exact (mixedUpdates_sendable update listed _ inUpdate).readable
    obtain ⟨events, last, encoded⟩ := mixedUpdates_encoded
    obtain ⟨machine, accepted, idle⟩ :=
      (client_accepts_server "thread" "run" pointRegistry {}).1 _ _ _ readable encoded
    exact ⟨events, last, machine, encoded, accepted, idle rfl⟩
  · -- Without a serializer of points, the second update cannot be encoded.
    apply (client_accepts_server "thread" "run" .empty {}).2
    intro update member call inUpdate arguments document made serialized
    simp only [mixedUpdates, List.map_cons, List.map_nil, List.mem_cons, Timed.arrival.injEq,
      List.not_mem_nil, or_false] at member
    rcases member with rfl | rfl | rfl | rfl <;>
      simp only [Chat.encodeSnapshot, Chat.encodeDelta, List.mem_cons, ContentItem.call.injEq,
        reduceCtorEq, List.not_mem_nil, or_false] at inUpdate
    rcases inUpdate with rfl | rfl
    · cases made
      cases serialized
    · cases made

end AgentWire.Server

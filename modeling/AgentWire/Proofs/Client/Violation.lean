import AgentWire.Proofs.Client.CallSession

namespace AgentWire.Client

/-!
# What a violation leaves behind

A call hands the events in its store to the machine before it makes a request, so it
gets to a request only if the machine takes all of them (`outcome`).  An event is in
the store before the machine takes it, unless it ends its run.  A call that the
machine fails with any other event therefore fails the next call under its
conversation id in the same way, and without a request.
-/

open Chat (ChatMessage)
open Resume (Memory)

namespace Inbound

/-- The machine behind some events, or its refusal of the first one that it does not take. -/
def outcome (machine : Inbound) (events : List Event) : Except ClientError Inbound :=
  (machine.follow events).map Prod.fst

variable
  {machine next : Inbound}
  {event : Event}
  {events : List Event}

/-- An event that is taken leaves the outcome to the rest. -/
theorem outcome_cons_taken
    {update : Option Chat.Update}
    (taken : machine.apply event = .ok (next, update))
    (rest : List Event) :
    machine.outcome (event :: rest) = next.outcome rest := by
  cases followed : next.follow rest <;>
    simp [outcome, follow, taken, followed, bind, Except.bind, Except.map]

/-- An event that is refused settles the outcome. -/
theorem outcome_cons_refused
    {error : ClientError}
    (refused : machine.apply event = .error error)
    (rest : List Event) :
    machine.outcome (event :: rest) = .error error := by
  simp [outcome, follow, refused, bind, Except.bind, Except.map]

theorem outcome_append
    {updates : List Chat.Update}
    (followed : machine.follow events = .ok (next, updates))
    (rest : List Event) :
    machine.outcome (events ++ rest) = next.outcome rest := by
  induction events generalizing machine updates with
  | nil =>
      cases followed
      rfl
  | cons event events inductionHypothesis =>
      obtain ⟨middle, update, more, taken, others, -⟩ := exists_of_follow_cons followed
      rw [List.cons_append, outcome_cons_taken taken, inductionHypothesis others]

end Inbound

namespace CallSession

/-- The events in the store under the key of the call. -/
def storedEvents (session : CallSession) : List Event :=
  ((session.memory.load session.call.controller.key).getD {}).events

/-- A call that has not yet tried to connect, where the stored events come out like this. -/
def Replaying (outcome : Except ClientError Inbound) (session : CallSession) : Prop :=
  session.requests = [] ∧
    match session.call.controller.stage, session.call.stage with
    | .loading, .following =>
        session.call.inbound = {} ∧ Inbound.outcome {} session.storedEvents = outcome
    | .replaying event rest, .following => session.call.inbound.outcome (event :: rest) = outcome
    | .replaying _ rest, .delivering _ => session.call.inbound.outcome rest = outcome
    | .replaying _ _, .failed error => error = .cancelled ∨ outcome = .error error
    | .connecting, .following => outcome = .ok session.call.inbound
    | _, _ => False

/-- A call that has tried to connect; the stored events were all taken. -/
def Connected (outcome : Except ClientError Inbound) (session : CallSession) : Prop :=
  session.requests ≠ [] ∧ ∃ machine, outcome = .ok machine

section Replaying

variable
  {outcome : Except ClientError Inbound}
  {session : CallSession}
  {exchange? : Option Exchange}
  {update? : Option Chat.Update}
  {call : Call}
  {memory : Memory}

theorem requests_append
    (call : Call)
    (memory : Memory)
    (history : List Exchange)
    (exchange? : Option Exchange)
    (updates : List Chat.Update) :
    requests { call, memory, history := history ++ exchange?.toList, updates } =
      history.filterMap Exchange.request? ++ (exchange?.bind Exchange.request?).toList := by
  cases exchange? with
  | none => simp [requests]
  | some exchange => cases made : exchange.request? <;> simp [requests, made]

/-- An item that is offered before a call has tried to connect is an event from the store. -/
theorem Replaying.stage_of_offered
    {item : Delivery}
    (replaying : Replaying outcome session)
    (asked : session.call.controller.action = .deliver item) :
    ∃ event rest,
      item = .event event ∧ session.call.controller.stage = .replaying event rest := by
  obtain ⟨-, stands⟩ := replaying
  cases stage : session.call.controller.stage <;>
    simp [Controller.action, stage] at asked <;>
    rw [stage] at stands
  case replaying event rest =>
    exact ⟨event, rest, asked.symm, rfl⟩
  all_goals exact stands.elim

/-- An event that is offered before any request is one of the stored ones. -/
theorem Replaying.of_offered
    {event : Event}
    (replaying : Replaying outcome session)
    (following : session.call.stage = .following)
    (asked : session.call.controller.action = .deliver (.event event)) :
    ∃ rest,
      session.call.controller.stage = .replaying event rest ∧
        session.call.inbound.outcome (event :: rest) = outcome := by
  obtain ⟨offered, rest, same, replays⟩ := replaying.stage_of_offered asked
  have stands := replaying.2
  rw [following, replays] at stands
  cases same
  exact ⟨rest, replays, stands⟩

/-- While an update is handed over before any request, its stored event was taken. -/
theorem Replaying.of_delivering
    {item : Delivery}
    {update : Chat.Update}
    (replaying : Replaying outcome session)
    (delivering : session.call.stage = .delivering update)
    (asked : session.call.controller.action = .deliver item) :
    ∃ event rest,
      session.call.controller.stage = .replaying event rest ∧
        session.call.inbound.outcome rest = outcome := by
  obtain ⟨event, rest, -, replays⟩ := replaying.stage_of_offered asked
  have stands := replaying.2
  rw [delivering, replays] at stands
  exact ⟨event, rest, replays, stands⟩

/-- A call whose controller hands over the events that are left, and then connects. -/
theorem Replaying.of_replay
    {controller : Controller}
    {events : List Event}
    (quiet : session.requests = [])
    (following : session.call.stage = .following)
    (replays : session.call.controller = controller.replay events)
    (comes : session.call.inbound.outcome events = outcome) :
    Replaying outcome session := by
  refine ⟨quiet, ?_⟩
  rw [following, replays]
  cases events with
  | nil =>
      exact comes.symm
  | cons event rest =>
      exact comes

theorem advance_replaying
    {controller : Controller}
    {event : Event}
    {rest : List Event}
    (replays : controller.stage = .replaying event rest) :
    controller.advance .done = controller.replay rest := by
  simp [Controller.advance, Controller.proceed, replays]

/-- A call that replays stored events goes on to do so, fails as they come out, or connects. -/
theorem Replaying.transition
    (replaying : Replaying outcome session)
    (taken : CallTransition session.call session.memory exchange? update? call memory) :
    let next : CallSession :=
      { call
        memory
        history := session.history ++ exchange?.toList
        updates := session.updates ++ update?.toList }
    Replaying outcome next ∨ Connected outcome next := by
  have quiet : session.history.filterMap Exchange.request? = [] := replaying.1
  have stands := replaying.2
  intro next
  have requests : next.requests = (exchange?.bind Exchange.request?).toList := by
    rw [requests_append, quiet, List.nil_append]
  cases taken with
  | @followed exchange controller after stage taken silent =>
      -- Only these exchanges belong to stages before the first connection.
      rw [stage] at stands
      cases taken with
      | loaded loading =>
          rw [loading] at stands
          obtain ⟨fresh, comes⟩ := stands
          exact .inl (.of_replay requests stage rfl (fresh ▸ comes))
      | opened connecting | unknownRun connecting | refused connecting =>
          rw [connecting] at stands
          exact .inr ⟨by rw [requests]; nofun, _, stands⟩
      | replayed =>
          cases silent
      | forgot other | gaveUp other | received other | marked other | ended other | broken other
      | cleared other | restarted other | saved other | appended other | settled other
      | delivered other | closed other | waited other | cancelled other =>
          rw [other] at stands
          exact stands.elim
  | cancelled stage asked =>
      obtain ⟨event, rest, -, replays⟩ := replaying.stage_of_offered asked
      exact .inl ⟨requests, by rw [replays]; exact .inl rfl⟩
  | refused stage asked refused =>
      obtain ⟨rest, replays, comes⟩ := replaying.of_offered stage asked
      rw [Inbound.outcome_cons_refused refused] at comes
      have stillReplays : next.call.controller.stage = .replaying _ rest := replays
      exact .inl ⟨requests, by rw [stillReplays]; exact .inr comes.symm⟩
  | silent stage asked taken =>
      obtain ⟨rest, replays, comes⟩ := replaying.of_offered stage asked
      rw [Inbound.outcome_cons_taken taken] at comes
      exact .inl (.of_replay requests rfl (advance_replaying replays) comes)
  | told stage asked taken =>
      obtain ⟨rest, replays, comes⟩ := replaying.of_offered stage asked
      rw [Inbound.outcome_cons_taken taken] at comes
      have stillReplays : next.call.controller.stage = .replaying _ rest := replays
      exact .inl ⟨requests, by rw [stillReplays]; exact comes⟩
  | restarted stage asked =>
      obtain ⟨event, rest, same, -⟩ := replaying.stage_of_offered asked
      cases same
  | delivered stage asked =>
      obtain ⟨event, rest, replays, comes⟩ := replaying.of_delivering stage asked
      exact .inl (.of_replay requests rfl (advance_replaying replays) comes)

/-- A call that has tried to connect has done so ever after. -/
theorem Connected.transition
    (connected : Connected outcome session) :
    Connected outcome
      { call
        memory
        history := session.history ++ exchange?.toList
        updates := session.updates ++ update?.toList } := by
  refine ⟨?_, connected.2⟩
  rw [requests_append]
  exact List.append_ne_nil_of_left_ne_nil connected.1 _

/-- A call that has not tried to connect fails if it is cancelled or refuses a stored event. -/
theorem Replaying.error_of_fail
    {error : ClientError}
    (replaying : Replaying outcome session)
    (fails : session.call.action = .fail error) :
    error = .cancelled ∨ outcome = .error error := by
  obtain ⟨-, stands⟩ := replaying
  cases stage : session.call.stage with
  | delivering update =>
      simp [Call.action, stage] at fails
  | failed refusal =>
      simp only [Call.action, stage, CallAction.fail.injEq] at fails
      subst fails
      rw [stage] at stands
      cases replays : session.call.controller.stage <;> rw [replays] at stands
      case replaying => exact stands
      all_goals exact stands.elim
  | following =>
      rw [stage] at stands
      cases replays : session.call.controller.stage <;> rw [replays] at stands <;>
        simp [Call.action, Controller.action, stage, replays] at fails
      case failed => exact stands.elim

end Replaying

/-- A call gets to a request only if the machine takes all events in its store. -/
theorem replaying_run
    {call : Call}
    (fresh : Fresh call)
    (memory : Memory)
    (moves : List Move) :
    let outcome := Inbound.outcome {} (start call memory).storedEvents
    let session := (start call memory).run moves
    Replaying outcome session ∨ Connected outcome session := by
  intro outcome session
  refine run_keeps (fun session => Replaying outcome session ∨ Connected outcome session)
    ?_ ?_ (start_poised fresh memory) (.inl ?_) moves
  · rintro session exchange? update? call memory (replaying | connected) taken
    · exact replaying.transition taken
    · exact .inr connected.transition
  · rintro session memory (⟨quiet, stands⟩ | connected) same
    · refine .inl ⟨quiet, ?_⟩
      have stored : storedEvents { session with memory } = session.storedEvents := by
        rw [storedEvents, same, storedEvents]
      rw [stored]
      exact stands
    · exact .inr connected
  · refine ⟨rfl, ?_⟩
    have loading : (start call memory).call.controller.stage = .loading := by
      rw [start, fresh.controller_eq]
    have following : (start call memory).call.stage = .following := fresh.stage_eq
    rw [loading, following]
    exact ⟨fresh.inbound_eq, rfl⟩

/-- A call is at its first request, or it has failed, as the stored events come out. -/
def Arrived (outcome : Except ClientError Inbound) (call : Call) : Prop :=
  match outcome with
  | .ok _ => ∃ request, call.action = .follow (.connect request)
  | .error error => call.action = .fail error

/-- The consumer takes everything that it is given, and nothing else happens. -/
def served (session : CallSession) (count : Nat) : CallSession :=
  session.run (List.replicate count (.answer .done))

theorem served_succ (session : CallSession) (count : Nat) :
    session.served (count + 1) = (session.step (.answer .done)).served count :=
  rfl

/-- The consumer takes an item, and the call looks at it. -/
theorem step_of_offered
    {session : CallSession}
    {item : Delivery}
    (following : session.call.stage = .following)
    (asked : session.call.controller.action = .deliver item) :
    (session.step (.answer .done)).call = session.call.receive item := by
  have action : session.call.action = .check := by
    simp [Call.action, following, asked]
  simp [step, action, checked, goOn, (Call.advance_item following asked).1]

theorem step_of_delivering
    {session : CallSession}
    {update : Chat.Update}
    (delivering : session.call.stage = .delivering update) :
    (session.step (.answer .done)).call = session.call.resume := by
  simp [step, goOn, Call.action, Call.advance, delivering]

/-- A call whose consumer takes everything gets through the events that are left. -/
theorem arrived_of_replay
    {outcome : Except ClientError Inbound}
    {controller : Controller}
    {events : List Event}
    {session : CallSession}
    (following : session.call.stage = .following)
    (replays : session.call.controller = controller.replay events)
    (comes : session.call.inbound.outcome events = outcome) :
    ∃ count, Arrived outcome (session.served count).call := by
  -- An event that tells an update costs the consumer two answers, any other one.
  induction events generalizing controller session with
  | nil =>
      refine ⟨0, ?_⟩
      rw [← comes]
      refine ⟨session.call.controller.request, ?_⟩
      simp [served, run, Call.action, Controller.action, following, replays, Controller.replay,
        Controller.goTo]
  | cons event rest inductionHypothesis =>
      have stage : session.call.controller.stage = .replaying event rest := by
        rw [replays]
        rfl
      have asked : session.call.controller.action = .deliver (.event event) := by
        rw [Controller.action, stage]
      have stepped := step_of_offered following asked
      cases taken : session.call.inbound.apply event with
      | error error =>
          rw [Call.receive_refused taken] at stepped
          rw [Inbound.outcome_cons_refused taken] at comes
          refine ⟨1, ?_⟩
          rw [← comes, served_succ]
          show (session.step (.answer .done)).call.action = .fail error
          rw [stepped]
          rfl
      | ok result =>
          obtain ⟨inbound, update?⟩ := result
          rw [Inbound.outcome_cons_taken taken] at comes
          cases update? with
          | none =>
              rw [Call.receive_silent taken] at stepped
              have replaysRest :
                  (session.step (.answer .done)).call.controller =
                    session.call.controller.replay rest := by
                rw [stepped]
                exact advance_replaying stage
              obtain ⟨count, arrived⟩ :=
                inductionHypothesis (by rw [stepped]; rfl) replaysRest
                  (by rw [stepped]; exact comes)
              exact ⟨count + 1, arrived⟩
          | some update =>
              rw [Call.receive_told taken] at stepped
              obtain ⟨id, delivering⟩ :=
                Call.handOver_stage { session.call.note event with inbound } update
              rw [← stepped] at delivering
              have resumed := step_of_delivering delivering
              rw [stepped] at resumed
              have replaysRest :
                  ((session.step (.answer .done)).step (.answer .done)).call.controller =
                    session.call.controller.replay rest := by
                rw [resumed]
                exact advance_replaying stage
              obtain ⟨count, arrived⟩ :=
                inductionHypothesis (by rw [resumed]; rfl) replaysRest
                  (by rw [resumed]; exact comes)
              exact ⟨count + 2, arrived⟩

/-- A call whose consumer takes everything gets to its first request, or it fails before. -/
theorem arrived_of_start
    {call : Call}
    (fresh : Fresh call)
    (memory : Memory) :
    ∃ count,
      Arrived (Inbound.outcome {} (start call memory).storedEvents)
        ((start call memory).served count).call := by
  have loading : call.controller.stage = .loading := by
    rw [fresh.controller_eq]
  have stepped :
      ((start call memory).step (.answer .done)).call =
        { call with controller := call.controller.begin (memory.load call.controller.key) } := by
    simp [start, step, stream, Session.reply?, Call.action, Controller.action, Call.advance,
      Controller.advance, fresh.stage_eq, loading]
  have following : ((start call memory).step (.answer .done)).call.stage = .following := by
    rw [stepped]
    exact fresh.stage_eq
  have comes :
      ((start call memory).step (.answer .done)).call.inbound.outcome
          (start call memory).storedEvents =
        Inbound.outcome {} (start call memory).storedEvents := by
    rw [stepped, fresh.inbound_eq]
  obtain ⟨count, arrived⟩ :=
    arrived_of_replay following (by rw [stepped, Controller.begin]; rfl) comes
  exact ⟨count + 1, arrived⟩

end CallSession

namespace Transition

/-- A stream fails without handing anything over, and what it has handed over is stored. -/
theorem stored_of_failed
    {controller next : Controller}
    {memory after : Memory}
    {exchange : Exchange}
    {segment : List Event}
    {error : ClientError}
    (before : WriteAhead controller (memory.load controller.key) segment)
    (taken : Transition controller memory exchange next after)
    (failed : next.stage = .failed error) :
    exchange.delivery? = none ∧ ((after.load next.key).getD {}).events = segment := by
  have key := taken.key_eq
  have standing := before.standing
  have stored :
      Caught controller.progress controller.delivered (memory.load controller.key) segment →
        ((memory.load controller.key).getD {}).events = segment := by
    rintro ⟨storedShape, segmentShape, -⟩
    rw [storedShape, kept, segmentShape]
    split
    · next empty => exact empty.symm
    · rfl
  cases taken with
  | refused stage | ended stage | broken stage | cancelled stage =>
      rw [stage] at standing
      exact ⟨rfl, by rw [key]; exact stored standing⟩
  | loaded | replayed | opened | unknownRun | forgot | gaveUp | received | marked | cleared
  | restarted | saved | appended | settled | delivered | closed | waited =>
      simp only [Controller.begin, Controller.replay, Controller.forget, Controller.receive,
        Controller.accept, Controller.goTo] at failed
      repeat' split at failed
      all_goals simp_all

end Transition

namespace Session

/-- A stream that has failed has stored what it has handed over since the last restart. -/
theorem stored_of_failed_run
    {memory : Memory}
    {key : String}
    (resumable : Resumable (memory.load key))
    (policy : RetryPolicy)
    (input : RunInput)
    (moves : List Move) :
    let session := (start policy key input memory).run moves
    ∀ error,
      session.controller.stage = .failed error →
      (session.stored.getD {}).events = session.segment := by
  refine (run_keeps
    (fun session =>
      WriteAhead session.controller session.stored session.segment ∧
        ∀ error,
          session.controller.stage = .failed error →
          (session.stored.getD {}).events = session.segment)
    ?_ ?_ ⟨.start resumable policy key input, fun _ failed => ?_⟩ moves).2
  · rintro session exchange controller memory ⟨before, -⟩ taken
    rw [segment_concat]
    refine ⟨before.transition taken, ?_⟩
    intro error failed
    obtain ⟨silent, stored⟩ := taken.stored_of_failed before failed
    rw [silent]
    exact stored
  · rintro session memory ⟨before, settled⟩ same
    have stored : Session.stored { session with memory } = session.stored := same
    exact ⟨by rw [stored]; exact before, by rw [stored]; exact settled⟩
  · cases failed

end Session

namespace CallSession

/-- What is known of a call and its store after any moves. -/
structure Sound (session : CallSession) : Prop where
  attentive : session.Attentive
  ahead : WriteAhead session.stream.controller session.stream.stored session.stream.segment
  settled :
    ∀ error,
      session.stream.controller.stage = .failed error →
      (session.stream.stored.getD {}).events = session.stream.segment

section Violation

variable
  {session : CallSession}
  {violation : Violation}

theorem storedEvents_eq (session : CallSession) :
    session.storedEvents = (session.stream.stored.getD {}).events :=
  rfl

/-- A call fails of a violation with a refused event, or because its stream fails. -/
theorem Sound.refusal
    (sound : session.Sound)
    (fails : session.call.action = .fail (.protocol violation)) :
    (∃ event machine told,
      session.stream.offered? = some (.event event) ∧
        Inbound.follow {} session.stream.segment = .ok (machine, told) ∧
        machine.apply event = .error (.protocol violation)) ∨
      session.stream.offered? = none ∧
        ∃ machine told,
          session.storedEvents = session.stream.segment ∧
            Inbound.follow {} session.stream.segment = .ok (machine, told) := by
  have attentive := sound.attentive
  rw [Attentive] at attentive
  cases stage : session.call.stage with
  | delivering update =>
      simp [Call.action, stage] at fails
  | failed error =>
      simp only [Call.action, stage, CallAction.fail.injEq] at fails
      subst fails
      rw [stage] at attentive
      rcases attentive with cancelled | ⟨event, machine, told, asked, heard, refused⟩
      · cases cancelled
      · obtain ⟨told, followed⟩ := Inbound.follow_segmentOf heard
        refine .inl ⟨event, machine, told, ?_, followed, refused⟩
        simp [Session.offered?, stream, asked]
  | following =>
      rw [stage] at attentive
      obtain ⟨told, heard, -⟩ := attentive
      obtain ⟨told, followed⟩ := Inbound.follow_segmentOf heard
      have failed : session.call.controller.stage = .failed (.protocol violation) := by
        cases failed : session.call.controller.stage <;>
          simp_all [Call.action, Controller.action]
      refine .inr ⟨?_, _, told, sound.settled _ failed, followed⟩
      simp [Session.offered?, stream, Controller.action, failed]

/-- An event that is refused is stored, unless it ends its run. -/
theorem Sound.outcome_refused
    {event : Event}
    (sound : session.Sound)
    (fails : session.call.action = .fail (.protocol violation))
    (offered : session.stream.offered? = some (.event event))
    (unended : event.isTerminal = false) :
    Inbound.outcome {} session.storedEvents = .error (.protocol violation) := by
  rcases sound.refusal fails with
    ⟨refusedEvent, machine, told, same, followed, refused⟩ | ⟨nothing, -⟩
  · rw [offered, Option.some.injEq, Delivery.event.injEq] at same
    subst same
    have standing := sound.ahead.standing
    obtain ⟨rest, stored⟩ :
        ∃ rest, session.storedEvents = session.stream.segment ++ event :: rest := by
      rcases Session.stage_of_offered_event offered with ⟨rest, stage⟩ | stage
      · rw [stage] at standing
        obtain ⟨storedShape, eventsShape, -⟩ := standing
        exact ⟨rest, by rw [← eventsShape, storedEvents_eq, storedShape]; rfl⟩
      · rw [stage] at standing
        obtain ⟨eventsShape, storedShape, -⟩ := standing
        simp only [unended, Bool.false_eq_true, ↓reduceIte] at storedShape
        exact ⟨[], by rw [← eventsShape, storedEvents_eq, storedShape]; rfl⟩
    rw [stored, Inbound.outcome_append followed, Inbound.outcome_cons_refused refused]
  · rw [offered] at nothing
    cases nothing

/-- Without such an event, the machine takes all that is stored. -/
theorem Sound.outcome_taken
    (sound : session.Sound)
    (fails : session.call.action = .fail (.protocol violation))
    (ended :
      ∀ event, session.stream.offered? = some (.event event) → event.isTerminal = true) :
    ∃ machine, Inbound.outcome {} session.storedEvents = .ok machine := by
  rcases sound.refusal fails with
    ⟨event, machine, told, offered, -⟩ | ⟨-, machine, told, stored, followed⟩
  · have cleared := Session.stored_of_last sound.ahead offered (ended event offered)
    exact ⟨{}, by rw [storedEvents_eq, cleared]; rfl⟩
  · exact ⟨machine, by rw [stored, Inbound.outcome, followed]; rfl⟩

variable
  {settings : CallSettings}
  {id : String}
  {memory : Memory}

/-- However a call is driven, what it leaves under its own key is sound. -/
theorem sound_run
    {messages : List ChatMessage}
    {options : Options}
    {supply : IdSupply}
    {call : Call}
    (named : id ≠ "")
    (left : Left settings id memory)
    (addressed : options.conversationId = some id)
    (started : Call.start settings messages options supply = .ok call)
    (moves : List Move) :
    ((start call memory).run moves).call.controller.key = id ∧
      Sound ((start call memory).run moves) := by
  obtain ⟨fresh, -, -⟩ := fresh_of_start started
  obtain ⟨policy, input, streamMoves, ran⟩ :=
    stream_of_start named addressed started memory moves
  have resumable := (left.streams named).resumable
  obtain ⟨key, ahead⟩ := Session.writeAhead_run resumable policy input streamMoves
  have settled := Session.stored_of_failed_run resumable policy input streamMoves
  rw [← ran] at key ahead settled
  exact ⟨key, attentive_run fresh memory moves, ahead, settled⟩

/-- How the events in the store come out decides whether a call gets to a request. -/
theorem next_of_outcome
    {call : Call}
    (fresh : Fresh call)
    (memory : Memory) :
    (∀ error,
      Inbound.outcome {} (start call memory).storedEvents = .error error →
      (∃ count, ((start call memory).served count).call.action = .fail error) ∧
        ∀ moves,
          ((start call memory).run moves).requests = [] ∧
            ∀ other,
              ((start call memory).run moves).call.action = .fail other →
              other = error ∨ other = .cancelled) ∧
      ((∃ machine, Inbound.outcome {} (start call memory).storedEvents = .ok machine) →
        (∃ count request,
          ((start call memory).served count).call.action = .follow (.connect request)) ∧
          ∀ moves error,
            ((start call memory).run moves).call.action = .fail error →
            error = .cancelled ∨ ((start call memory).run moves).requests ≠ []) := by
  obtain ⟨count, arrived⟩ := arrived_of_start fresh memory
  refine ⟨?_, ?_⟩
  · intro error refuses
    rw [refuses] at arrived
    refine ⟨⟨count, arrived⟩, fun moves => ?_⟩
    rcases replaying_run fresh memory moves with replaying | ⟨-, machine, takes⟩
    · refine ⟨replaying.1, fun other fails => ?_⟩
      rcases replaying.error_of_fail fails with cancelled | refusesOther
      · exact .inr cancelled
      · rw [refuses, Except.error.injEq] at refusesOther
        exact .inl refusesOther.symm
    · rw [refuses] at takes
      cases takes
  · rintro ⟨machine, takes⟩
    rw [takes] at arrived
    refine ⟨⟨count, arrived⟩, fun moves error fails => ?_⟩
    rcases replaying_run fresh memory moves with replaying | connected
    · rcases replaying.error_of_fail fails with cancelled | refuses
      · exact .inl cancelled
      · rw [takes] at refuses
        cases refuses
    · exact .inr connected.1

/--
A call has failed of a violation.  If the machine refused an event that does not end its
run, this event is stored, and the next call under the conversation id fails of the same
violation without any request, or because it is cancelled.  Otherwise the next call gets
to a request, and it is cancelled or has made one when it fails.
-/
theorem next_call_after_violation
    (named : id ≠ "")
    (left : Left settings id memory)
    {messages nextMessages : List ChatMessage}
    {options nextOptions : Options}
    {supply nextSupply : IdSupply}
    {call nextCall : Call}
    (addressed : options.conversationId = some id)
    (started : Call.start settings messages options supply = .ok call)
    (moves : List Move)
    (fails : ((start call memory).run moves).call.action = .fail (.protocol violation))
    (nextAddressed : nextOptions.conversationId = some id)
    (nextStarted : Call.start settings nextMessages nextOptions nextSupply = .ok nextCall) :
    let first := (start call memory).run moves
    let next := start nextCall first.memory
    (∀ event,
      first.stream.offered? = some (.event event) →
      event.isTerminal = false →
      (∃ count, (next.served count).call.action = .fail (.protocol violation)) ∧
        ∀ moves,
          (next.run moves).requests = [] ∧
            ∀ error,
              (next.run moves).call.action = .fail error →
              error = .protocol violation ∨ error = .cancelled) ∧
      ((∀ event, first.stream.offered? = some (.event event) → event.isTerminal = true) →
        (∃ count request, (next.served count).call.action = .follow (.connect request)) ∧
          ∀ moves error,
            (next.run moves).call.action = .fail error →
            error = .cancelled ∨ (next.run moves).requests ≠ []) := by
  intro first next
  obtain ⟨key, sound⟩ := sound_run named left addressed started moves
  obtain ⟨fresh, nextKey, -⟩ := fresh_of_start nextStarted
  rw [keyOf_eq named nextAddressed] at nextKey
  have stored : next.storedEvents = first.storedEvents := by
    rw [storedEvents, storedEvents, key]
    show ((first.memory.load nextCall.controller.key).getD {}).events = _
    rw [nextKey]
  obtain ⟨refusing, taking⟩ := next_of_outcome fresh first.memory
  refine ⟨fun event offered unended => refusing _ ?_, fun ended => taking ?_⟩
  · show Inbound.outcome {} next.storedEvents = _
    rw [stored]
    exact sound.outcome_refused fails offered unended
  · show ∃ machine, Inbound.outcome {} next.storedEvents = .ok machine
    rw [stored]
    exact sound.outcome_taken fails ended

end Violation

end CallSession

namespace StrayText

/-- What the caller asks. -/
def question : List ChatMessage :=
  [{ role := .user, contents := [.text "Hi"], messageId := some "m0" }]

/-- The conversation. -/
def options : Options :=
  { conversationId := some "conv" }

/-- The run starts. -/
def opened : Event :=
  (EventBody.runStarted "t1" "r1").toEvent.numbered 1

/-- A piece of a message that was not started. -/
def stray : Event :=
  (EventBody.textMessageContent "m1" "Hello").toEvent.numbered 2

/-- The request of the call. -/
def input : RunInput where
  threadId := "conv"
  runId := IdSupply.idAt 0 0
  messages := [.spoken .user "m0" "Hi" none]

/-- The call before its first step. -/
def begun : Call where
  controller := { policy := {}, key := "conv", input }
  identity := .ofClient (some "conv")
  supply := { used := 1 }

/-- The call receives both events, and its machine refuses the second one. -/
def refusing : List Move :=
  [.answer .done, .answer .done, .answer (.frame (.event opened)), .answer .done, .answer .done,
   .answer .done, .answer (.frame (.event stray)), .answer .done, .answer .done]

/-- The violation that the second event is. -/
def violation : Violation :=
  .unexpectedEvent "TEXT_MESSAGE_CONTENT" "no message is open"

theorem started : Call.start {} question options {} = .ok begun := by
  decide +kernel

theorem fails :
    ((CallSession.start begun []).run refusing).call.action = .fail (.protocol violation) := by
  decide +kernel

end StrayText

namespace CallSession

open StrayText

/-- A text that was never opened, and the calls behind the one that it broke. -/
theorem next_call_after_violation_stray :
    let first := (start begun []).run refusing
    let next := start begun first.memory
    first.call.action = .fail (.protocol violation) ∧
      first.stream.offered? = some (.event stray) ∧
      (∃ count, (next.served count).call.action = .fail (.protocol violation)) ∧
      ∀ moves,
        (next.run moves).requests = [] ∧
          ∀ error,
            (next.run moves).call.action = .fail error →
            error = .protocol violation ∨ error = .cancelled := by
  intro first next
  have offered : first.stream.offered? = some (.event stray) := by
    decide +kernel
  have left : Left {} "conv" [] :=
    .fresh rfl
  have stuck :=
    (next_call_after_violation (by decide) left rfl started refusing fails rfl started).1
      stray offered rfl
  exact ⟨fails, offered, stuck⟩

/-- A call may fail without a request because an earlier one has failed of a violation. -/
theorem not_violation_ends_with_run :
    ¬∀ (settings : CallSettings) (id : String) (memory : Memory)
        (messages nextMessages : List ChatMessage) (options nextOptions : Options)
        (supply nextSupply : IdSupply) (call nextCall : Call) (violation : Violation)
        (moves nextMoves : List Move) (error : ClientError),
        id ≠ "" →
        Left settings id memory →
        options.conversationId = some id →
        Call.start settings messages options supply = .ok call →
        ((start call memory).run moves).call.action = .fail (.protocol violation) →
        nextOptions.conversationId = some id →
        Call.start settings nextMessages nextOptions nextSupply = .ok nextCall →
        Move.answer (.failed .cancelled) ∉ nextMoves →
        let next := (start nextCall ((start call memory).run moves).memory).run nextMoves
        next.call.action = .fail error →
        next.requests ≠ [] := by
  intro alwaysRequests
  -- The consumer takes the update of the first event, and the second event is refused again.
  have requested :=
    alwaysRequests {} "conv" [] question question options options {} {} begun begun violation
      refusing (List.replicate 4 (.answer .done)) (.protocol violation) (by decide) (.fresh rfl)
      rfl started fails rfl started (by decide) (by decide +kernel)
  exact requested (by decide +kernel)

end CallSession

end AgentWire.Client

import AgentWire.Client.Call
import AgentWire.Proofs.Client.Inbound
import AgentWire.Proofs.Client.Owed
import AgentWire.Proofs.Client.WriteAhead

namespace AgentWire.Client

/-!
# A call at work

A session of a call is the call with the store in memory that it writes to, all that
its controller has asked for so far, and the updates that it has handed over.  The
moves are those of the stream below the call; a move also answers when the call looks
whether it is cancelled.

`CallTransition` lists what one answer can do.  The stream below a call is a session
of its own, and what a call hands over is told by the items of this stream (`listen`).
-/

open Chat (ChatMessage Update)
open Resume (Memory)

namespace Exchange

/-- The request that was made. -/
def request? (exchange : Exchange) : Option Request :=
  match exchange.action with
  | .connect request => some request
  | _ => none

end Exchange

/-- A call, the store that it writes to, and what it asked for and handed over so far. -/
structure CallSession where
  call : Call
  memory : Memory
  history : List Exchange := []
  updates : List Update := []
  deriving Repr, DecidableEq

namespace Call

/-- A call that has tapped an event and noted the ids in it. -/
def note (call : Call) (event : Event) : Call :=
  { call with
    tapped := call.tapped ++ [event]
    identity := call.identity.observe event }

/-- The update that a call hands over. -/
def offered? (call : Call) : Option Update :=
  match call.stage with
  | .delivering update => some update
  | _ => none

/-- An event that the machine refuses was tapped, and the call fails. -/
theorem receive_refused
    {call : Call}
    {event : Event}
    {error : ClientError}
    (refused : call.inbound.apply event = .error error) :
    call.receive (.event event) = { call.note event with stage := .failed error } := by
  simp [receive, note, refused]

/-- An event without an update is tapped, and the call goes on. -/
theorem receive_silent
    {call : Call}
    {event : Event}
    {inbound : Inbound}
    (taken : call.inbound.apply event = .ok (inbound, none)) :
    call.receive (.event event) = resume { call.note event with inbound } := by
  simp [receive, note, taken]

/-- The update of an event is handed over under the conversation id. -/
theorem receive_told
    {call : Call}
    {event : Event}
    {inbound : Inbound}
    {update : Update}
    (taken : call.inbound.apply event = .ok (inbound, some update)) :
    call.receive (.event event) = handOver { call.note event with inbound } update := by
  simp [receive, note, taken]

@[simp] theorem handOver_inbound (call : Call) (update : Update) :
    (call.handOver update).inbound = call.inbound :=
  rfl

/-- An update is handed over as it is but for the conversation id. -/
theorem handOver_stage (call : Call) (update : Update) :
    ∃ id, (call.handOver update).stage =
      .delivering { update with conversationId := some id } :=
  ⟨_, rfl⟩

end Call

namespace CallSession

/-- A call before its first step. -/
def start (call : Call) (memory : Memory) : CallSession where
  call := call
  memory := memory

/-- The stream below the call. -/
def stream (session : CallSession) : Session where
  controller := session.call.controller
  memory := session.memory
  history := session.history

/-- Whether the call is cancelled, as an answer. -/
def checked (given : Answer) : Answer :=
  if given = .failed .cancelled then given else .done

/-- Go on with an answer that is not for the controller; the call may be done with an item. -/
def goOn (session : CallSession) (answer : Answer) : CallSession :=
  let call := session.call.advance answer
  let taken : Exchange := ⟨session.call.controller.action, .done⟩
  { session with
    call
    history :=
      if call.stage = .following then session.history ++ [taken] else session.history
    updates := session.updates ++ session.call.offered?.toList }

/-- One move. -/
def step (session : CallSession) : Move → CallSession
  | .answer given =>
      match session.call.action with
      | .follow _ =>
          match session.stream.reply? given with
          | some (answer, memory) =>
              { session with
                call := session.call.advance answer
                memory
                history :=
                  session.history ++ [⟨session.call.controller.action, answer⟩] }
          | none => session
      | .check => session.goOn (checked given)
      | .deliver _ => session.goOn .done
      | .finish | .fail _ => session
  | .elsewhere key progress =>
      { session with memory := (session.stream.step (.elsewhere key progress)).memory }

/-- Any number of moves, one after the other. -/
def run (session : CallSession) (moves : List Move) : CallSession :=
  moves.foldl step session

/-- The requests that a call has made. -/
def requests (session : CallSession) : List Request :=
  session.history.filterMap Exchange.request?

/-- The items of the stream that the call is done with. -/
def deliveries (session : CallSession) : List Delivery :=
  session.stream.deliveries

/--
The stores that calls of a client under a conversation id leave behind, wherever each
is given up.
-/
inductive Left (settings : CallSettings) (id : String) : Memory → Prop where
  | fresh {memory : Memory} :
      memory.load id = none →
      Left settings id memory
  | call {memory : Memory} {messages : List ChatMessage} {options : Options}
      {supply : IdSupply} {call : Call}
      (moves : List Move) :
      Left settings id memory →
      options.conversationId = some id →
      Call.start settings messages options supply = .ok call →
      Left settings id ((start call memory).run moves).memory

end CallSession

/--
What one answer of the surroundings does to a call and its store: what the controller
has asked for, if it goes on, the update that was taken, and the call and the store
after it.
-/
inductive CallTransition (call : Call) (memory : Memory) :
    Option Exchange → Option Update → Call → Memory → Prop where
  | followed {exchange : Exchange} {next : Controller} {after : Memory} :
      call.stage = .following →
      Transition call.controller memory exchange next after →
      exchange.delivery? = none →
      CallTransition call memory (some exchange) none
        { call with controller := next } after
  | cancelled {item : Delivery} :
      call.stage = .following →
      call.controller.action = .deliver item →
      CallTransition call memory none none
        { call with stage := .failed .cancelled } memory
  | refused {event : Event} {error : ClientError} :
      call.stage = .following →
      call.controller.action = .deliver (.event event) →
      call.inbound.apply event = .error error →
      CallTransition call memory none none
        { call.note event with stage := .failed error } memory
  | silent {event : Event} {inbound : Inbound} :
      call.stage = .following →
      call.controller.action = .deliver (.event event) →
      call.inbound.apply event = .ok (inbound, none) →
      CallTransition call memory (some ⟨.deliver (.event event), .done⟩) none
        (Call.resume { call.note event with inbound }) memory
  | told {event : Event} {inbound : Inbound} {update : Update} :
      call.stage = .following →
      call.controller.action = .deliver (.event event) →
      call.inbound.apply event = .ok (inbound, some update) →
      CallTransition call memory none none
        (Call.handOver { call.note event with inbound } update) memory
  | restarted {lastNumber : UInt64} :
      call.stage = .following →
      call.controller.action = .deliver (.restarted lastNumber) →
      CallTransition call memory none none
        (Call.handOver { call with inbound := {} } (restartedUpdate lastNumber)) memory
  | delivered {update : Update} {item : Delivery} :
      call.stage = .delivering update →
      call.controller.action = .deliver item →
      CallTransition call memory (some ⟨.deliver item, .done⟩) (some update)
        call.resume memory

namespace Call

/-- A call that hands over an update is not yet done with the item of its stream. -/
def Poised (call : Call) : Prop :=
  ∀ update, call.stage = .delivering update → ∃ item, call.controller.action = .deliver item

/-- What a call does that follows its stream is decided by what its controller does. -/
theorem action_following
    {call : Call}
    (stage : call.stage = .following) :
    (∃ item, call.controller.action = .deliver item ∧ call.action = .check) ∨
      (call.controller.action = .finish ∧ call.action = .finish) ∨
      (∃ error, call.controller.action = .fail error ∧ call.action = .fail error) ∨
      ((∀ item, call.controller.action ≠ .deliver item) ∧
        call.action = .follow call.controller.action) := by
  cases asked : call.controller.action <;>
    simp [action, stage, asked]

/-- What a call that follows its stream makes of an answer for the stream. -/
theorem advance_followed
    {call : Call}
    (stage : call.stage = .following)
    (offersNothing : ∀ item, call.controller.action ≠ .deliver item)
    (answer : Answer) :
    call.advance answer = { call with controller := call.controller.advance answer } := by
  unfold advance
  split
  · next delivering => simp [stage] at delivering
  · next failed => simp [stage] at failed
  · split
    · next item asked => exact absurd asked (offersNothing item)
    · rfl

/-- What a call makes of an item of its stream, unless it is cancelled. -/
theorem advance_item
    {call : Call}
    {item : Delivery}
    (stage : call.stage = .following)
    (asked : call.controller.action = .deliver item) :
    call.advance .done = call.receive item ∧
      ∀ error, call.advance (.failed error) = { call with stage := .failed error } := by
  simp [advance, stage, asked]

end Call

/-- A transition is what its answer does to a session. -/
theorem Transition.step_eq
    {controller next : Controller}
    {memory after : Memory}
    {exchange : Exchange}
    (taken : Transition controller memory exchange next after)
    (history : List Exchange) :
    Session.step { controller, memory, history } (.answer exchange.answer) =
      { controller := next, memory := after, history := history ++ [exchange] } := by
  cases taken <;>
    simp_all [Session.step, Session.reply?, Controller.action, Controller.advance,
      Controller.proceed, Controller.refused]

/-- An item is taken as soon as it is delivered. -/
theorem Transition.of_delivery
    {controller : Controller}
    {item : Delivery}
    (asked : controller.action = .deliver item)
    (memory : Memory) :
    Transition controller memory ⟨.deliver item, .done⟩ (controller.advance .done) memory := by
  have replied : Session.reply? { controller, memory } .done = some (.done, memory) := by
    simp [Session.reply?, asked]
  have taken := Session.transition_of_reply? replied
  rwa [asked] at taken

namespace CallTransition

variable
  {call next : Call}
  {memory after : Memory}
  {exchange? : Option Exchange}
  {update? : Option Update}

/-- Behind every transition, an update that is to be handed over comes of the item on offer. -/
theorem poised (taken : CallTransition call memory exchange? update? next after) :
    next.Poised := by
  intro update delivering
  cases taken with
  | followed stage =>
      simp [stage] at delivering
  | cancelled | refused =>
      cases delivering
  | silent | delivered =>
      cases delivering
  | told stage asked =>
      exact ⟨_, asked⟩
  | restarted stage asked =>
      exact ⟨_, asked⟩

/-- The stream takes part in a transition with one of its own, or stays as it was. -/
theorem stream (taken : CallTransition call memory exchange? update? next after) :
    (exchange? = none ∧ next.controller = call.controller ∧ after = memory) ∨
      ∃ exchange,
        exchange? = some exchange ∧
          Transition call.controller memory exchange next.controller after := by
  cases taken with
  | followed stage taken =>
      exact .inr ⟨_, rfl, taken⟩
  | cancelled | refused | told | restarted =>
      exact .inl ⟨rfl, rfl, rfl⟩
  | silent stage asked =>
      exact .inr ⟨_, rfl, .of_delivery asked memory⟩
  | delivered stage asked =>
      exact .inr ⟨_, rfl, .of_delivery asked memory⟩

end CallTransition

namespace CallSession

/-- An answer to a call is a transition, or leaves the session as it was. -/
theorem answer_cases
    {session : CallSession}
    (poised : session.call.Poised)
    (given : Answer) :
    (∃ exchange? update? call memory,
      CallTransition session.call session.memory exchange? update? call memory ∧
        session.step (.answer given) =
          { call
            memory
            history := session.history ++ exchange?.toList
            updates := session.updates ++ update?.toList }) ∨
      session.step (.answer given) = session := by
  obtain ⟨call, memory, history, updates⟩ := session
  cases stage : call.stage with
  | failed error =>
      exact .inr (by simp [step, Call.action, stage])
  | delivering update =>
      obtain ⟨item, asked⟩ := poised update stage
      refine .inl ⟨_, _, _, _, .delivered stage asked, ?_⟩
      simp [step, goOn, Call.action, Call.advance, Call.offered?, Call.resume, stage, asked]
  | following =>
      rcases call.action_following stage with
        ⟨item, asked, action⟩ | ⟨-, action⟩ | ⟨error, -, action⟩ | ⟨offersNothing, action⟩
      · -- The stream offers an item: the call looks at it, unless it is cancelled first.
        obtain ⟨received, failed⟩ := Call.advance_item stage asked
        simp only [step, action, checked]
        split
        · next cancelled =>
          subst cancelled
          refine .inl ⟨_, _, _, _, .cancelled stage asked, ?_⟩
          simp [goOn, failed, Call.offered?, stage]
        · simp only [goOn, received, asked, Call.offered?, stage]
          cases item with
          | event event =>
              cases taken : call.inbound.apply event with
              | error error =>
                  refine .inl ⟨_, _, _, _, .refused stage asked taken, ?_⟩
                  simp [Call.receive_refused taken]
              | ok result =>
                  obtain ⟨inbound, update?⟩ := result
                  cases update? with
                  | none =>
                      refine .inl ⟨_, _, _, _, .silent stage asked taken, ?_⟩
                      simp [Call.receive_silent taken, Call.resume]
                  | some update =>
                      refine .inl ⟨_, _, _, _, .told stage asked taken, ?_⟩
                      simp [Call.receive_told taken, Call.handOver]
          | restarted lastNumber =>
              refine .inl ⟨_, _, _, _, .restarted stage asked, ?_⟩
              simp [Call.receive, Call.handOver]
      · exact .inr (by simp [step, action])
      · exact .inr (by simp [step, action])
      · simp only [step, action, stream]
        split
        · next answer after replied =>
          have taken := Session.transition_of_reply? replied
          have silent : Exchange.delivery? ⟨call.controller.action, answer⟩ = none := by
            simp only [Exchange.delivery?]
          refine .inl ⟨_, _, _, _, .followed stage taken silent, ?_⟩
          simp [Call.advance_followed stage offersNothing]
        · exact .inr rfl

/-- A move is a transition, or leaves all but the store under other keys as it was. -/
theorem step_cases
    {session : CallSession}
    (poised : session.call.Poised)
    (move : Move) :
    (∃ exchange? update? call memory,
      CallTransition session.call session.memory exchange? update? call memory ∧
        session.step move =
          { call
            memory
            history := session.history ++ exchange?.toList
            updates := session.updates ++ update?.toList }) ∨
      ∃ memory,
        Memory.load memory session.call.controller.key =
            session.memory.load session.call.controller.key ∧
          session.step move = { session with memory } := by
  cases move with
  | answer given =>
      rcases answer_cases poised given with
        ⟨exchange?, update?, call, memory, taken, shape⟩ | same
      · exact .inl ⟨exchange?, update?, call, memory, taken, shape⟩
      · exact .inr ⟨session.memory, rfl, same⟩
  | elsewhere key progress =>
      exact .inr ⟨_, session.stream.load_elsewhere key progress, rfl⟩

/-- What every transition and every write under another key keeps, a run keeps. -/
theorem run_keeps
    (Invariant : CallSession → Prop)
    (transition :
      ∀ session exchange? update? call memory,
        Invariant session →
        CallTransition session.call session.memory exchange? update? call memory →
        Invariant
          { call
            memory
            history := session.history ++ exchange?.toList
            updates := session.updates ++ update?.toList })
    (elsewhere :
      ∀ session memory,
        Invariant session →
        Memory.load memory session.call.controller.key =
          session.memory.load session.call.controller.key →
        Invariant { session with memory })
    {session : CallSession}
    (poised : session.call.Poised)
    (initial : Invariant session)
    (moves : List Move) :
    Invariant (session.run moves) := by
  induction moves generalizing session with
  | nil =>
      exact initial
  | cons move rest inductionHypothesis =>
      rw [run, List.foldl_cons]
      rcases step_cases poised move with
        ⟨exchange?, update?, call, memory, taken, shape⟩ | ⟨memory, same, shape⟩
      · rw [shape]
        exact inductionHypothesis taken.poised
          (transition session exchange? update? call memory initial taken)
      · rw [shape]
        exact inductionHypothesis poised (elsewhere session memory initial same)

/-- Behind every move, an update that is to be handed over comes of the item on offer. -/
theorem poised_step
    {session : CallSession}
    (poised : session.call.Poised)
    (move : Move) :
    (session.step move).call.Poised := by
  rcases step_cases poised move with
    ⟨exchange?, update?, call, memory, taken, shape⟩ | ⟨memory, -, shape⟩
  · rw [shape]
    exact taken.poised
  · rw [shape]
    exact poised

/-- A move of a call is a move of the stream below it, or none. -/
theorem stream_step
    {session : CallSession}
    (poised : session.call.Poised)
    (move : Move) :
    ∃ streamMoves, (session.step move).stream = session.stream.run streamMoves := by
  cases move with
  | answer given =>
      rcases answer_cases poised given with
        ⟨exchange?, update?, call, memory, taken, shape⟩ | same
      · rw [shape]
        rcases taken.stream with ⟨rfl, controller, rfl⟩ | ⟨exchange, rfl, goesOn⟩
        · exact ⟨[], by simp [stream, Session.run, controller]⟩
        · exact ⟨[.answer exchange.answer], (goesOn.step_eq session.history).symm⟩
      · rw [same]
        exact ⟨[], rfl⟩
  | elsewhere key progress =>
      refine ⟨[.elsewhere key progress], ?_⟩
      by_cases same : key = session.call.controller.key <;>
        simp [step, stream, Session.run, Session.step, same]

/-- The stream below a call that runs is a session that runs. -/
theorem stream_run
    {session : CallSession}
    (poised : session.call.Poised)
    (moves : List Move) :
    ∃ streamMoves, (session.run moves).stream = session.stream.run streamMoves := by
  induction moves generalizing session with
  | nil =>
      exact ⟨[], rfl⟩
  | cons move rest inductionHypothesis =>
      obtain ⟨first, stepped⟩ := stream_step poised move
      obtain ⟨others, ran⟩ := inductionHypothesis (poised_step poised move)
      refine ⟨first ++ others, ?_⟩
      rw [stepped] at ran
      rw [Session.run, List.foldl_append]
      exact ran

end CallSession

/-! ### What the items of a stream tell -/

namespace Inbound

/-- What a machine and the updates so far become of an item, unless the machine refuses it. -/
def hear (heard : Inbound × List Update) : Delivery → Except ClientError (Inbound × List Update)
  | .event event => do
      let (next, update) ← heard.1.apply event
      .ok (next, heard.2 ++ update.toList)
  | .restarted lastNumber => .ok ({}, heard.2 ++ [restartedUpdate lastNumber])

/-- The machine behind the items of a stream and the updates that they give, if it takes all. -/
def listen (items : List Delivery) : Except ClientError (Inbound × List Update) :=
  items.foldlM hear ({}, [])

/-- The next item is heard behind all others. -/
theorem listen_concat
    {items : List Delivery}
    {heard : Inbound × List Update}
    (before : listen items = .ok heard)
    (item : Delivery) :
    listen (items ++ [item]) = hear heard item := by
  rw [listen, List.foldlM_append, ← listen, before]
  exact bind_pure (hear heard item)

/-- An event that is taken adds its update, if it has one. -/
theorem listen_taken
    {items : List Delivery}
    {machine next : Inbound}
    {told : List Update}
    {event : Event}
    {update : Option Update}
    (before : listen items = .ok (machine, told))
    (taken : machine.apply event = .ok (next, update)) :
    listen (items ++ [.event event]) = .ok (next, told ++ update.toList) := by
  rw [listen_concat before]
  simp [hear, taken, bind, Except.bind]

/-- Without restarts, hearing the items is following their events. -/
theorem hear_events
    {machine last : Inbound}
    {events : List Event}
    {past updates : List Update}
    (heard : (events.map Delivery.event).foldlM hear (machine, past) = .ok (last, updates)) :
    ∃ more, machine.follow events = .ok (last, more) ∧ updates = past ++ more := by
  induction events generalizing machine past with
  | nil =>
      cases heard
      exact ⟨[], rfl, by simp⟩
  | cons event rest inductionHypothesis =>
      rw [List.map_cons, List.foldlM_cons, hear] at heard
      cases taken : machine.apply event with
      | error error =>
          simp [taken, bind, Except.bind] at heard
      | ok result =>
          obtain ⟨next, update⟩ := result
          simp only [taken, bind, Except.bind] at heard
          obtain ⟨more, followed, rfl⟩ := inductionHypothesis heard
          exact ⟨_, follow_cons taken followed, by simp⟩

/-- The updates before the last restart, the one that tells of it, and those behind it. -/
theorem listen_restarted
    {before : List Delivery}
    {lastNumber : UInt64}
    {after : List Event}
    {machine : Inbound}
    {updates : List Update}
    (heard :
      listen (before ++ .restarted lastNumber :: after.map .event) = .ok (machine, updates)) :
    ∃ abandoning abandoned kept,
      listen before = .ok (abandoning, abandoned) ∧
        Inbound.follow {} after = .ok (machine, kept) ∧
        updates = abandoned ++ restartedUpdate lastNumber :: kept := by
  rw [listen, List.foldlM_append] at heard
  cases taken : listen before with
  | error error =>
      rw [← listen, taken] at heard
      cases heard
  | ok result =>
      obtain ⟨abandoning, abandoned⟩ := result
      rw [← listen, taken] at heard
      obtain ⟨kept, followed, rfl⟩ := hear_events heard
      exact ⟨abandoning, abandoned, kept, rfl, followed, by simp⟩

/-- A machine that takes all items takes all events since the last restart. -/
theorem follow_segmentOf
    {items : List Delivery}
    {machine : Inbound}
    {updates : List Update}
    (heard : listen items = .ok (machine, updates)) :
    ∃ more, Inbound.follow {} (segmentOf items) = .ok (machine, more) := by
  induction items using List.reverseRecOn generalizing machine updates with
  | nil =>
      cases heard
      exact ⟨[], rfl⟩
  | append_singleton items item inductionHypothesis =>
      cases before : listen items with
      | error error =>
          rw [listen, List.foldlM_append, ← listen, before] at heard
          cases heard
      | ok result =>
          obtain ⟨earlier, past⟩ := result
          obtain ⟨more, followed⟩ := inductionHypothesis before
          rw [listen_concat before] at heard
          rw [segmentOf, List.foldl_append, ← segmentOf]
          cases item with
          | restarted lastNumber =>
              cases heard
              exact ⟨[], rfl⟩
          | event event =>
              cases taken : earlier.apply event with
              | error error =>
                  simp [hear, taken, bind, Except.bind] at heard
              | ok next =>
                  simp only [hear, taken, bind, Except.bind, Except.ok.injEq,
                    Prod.mk.injEq] at heard
                  obtain ⟨rfl, -⟩ := heard
                  exact ⟨_, follow_append followed (follow_singleton taken)⟩

end Inbound

/-- An update without its conversation id. -/
def unaddressed (update : Update) : Update :=
  { update with conversationId := none }

/-- Updates that differ at most in the conversation ids on them. -/
def Alike (updates others : List Update) : Prop :=
  updates.map unaddressed = others.map unaddressed

/-- Updates stay alike behind one more, whatever its conversation id is. -/
theorem Alike.concat
    {updates others : List Update}
    (alike : Alike updates others)
    (update : Update)
    (id : Option String) :
    Alike (updates ++ [{ update with conversationId := id }]) (others ++ [update]) := by
  simp only [Alike, List.map_append] at alike ⊢
  rw [alike]
  rfl

namespace CallSession

open Inbound (listen hear)

variable {session : CallSession}

/--
A call has taken all items that it is done with, and has handed over what they tell.
An item that it refuses is one that its stream still offers.
-/
def Attentive (session : CallSession) : Prop :=
  match session.call.stage with
  | .following =>
      ∃ told,
        listen session.deliveries = .ok (session.call.inbound, told) ∧
          Alike session.updates told
  | .delivering update =>
      ∃ item told,
        session.call.controller.action = .deliver item ∧
          listen (session.deliveries ++ [item]) = .ok (session.call.inbound, told) ∧
          Alike (session.updates ++ [update]) told
  | .failed error =>
      error = .cancelled ∨
        ∃ event machine told,
          session.call.controller.action = .deliver (.event event) ∧
            listen session.deliveries = .ok (machine, told) ∧
            machine.apply event = .error error

/-- A delivery counts as soon as its exchange is noted. -/
theorem deliveries_append
    (call : Call)
    (memory : Memory)
    (history : List Exchange)
    (exchange? : Option Exchange)
    (updates : List Update) :
    deliveries { call, memory, history := history ++ exchange?.toList, updates } =
      history.filterMap Exchange.delivery? ++
        (exchange?.bind Exchange.delivery?).toList := by
  cases exchange? with
  | none => simp [deliveries, stream, Session.deliveries]
  | some exchange => exact Session.deliveries_concat call.controller memory history exchange

/-- A transition keeps the machine of a call at what its items tell. -/
theorem Attentive.transition
      {exchange? : Option Exchange}
    {update? : Option Update}
    {call : Call}
    {memory : Memory}
    (attentive : session.Attentive)
    (taken : CallTransition session.call session.memory exchange? update? call memory) :
    Attentive
      { call
        memory
        history := session.history ++ exchange?.toList
        updates := session.updates ++ update?.toList } := by
  have before : session.history.filterMap Exchange.delivery? = session.deliveries := rfl
  rw [Attentive] at attentive
  simp only [Attentive, deliveries_append, before]
  cases taken with
  | followed stage taken silent =>
      rw [stage] at attentive
      simpa [stage, silent] using attentive
  | cancelled stage =>
      exact .inl rfl
  | refused stage asked refused =>
      rw [stage] at attentive
      obtain ⟨told, heard, -⟩ := attentive
      exact .inr ⟨_, _, told, asked, by simpa using heard, refused⟩
  | silent stage asked taken =>
      rw [stage] at attentive
      obtain ⟨told, heard, alike⟩ := attentive
      have heardNext := Inbound.listen_taken heard taken
      rw [Option.toList_none, List.append_nil] at heardNext
      exact ⟨told, heardNext, by simpa using alike⟩
  | @told event inbound update stage asked taken =>
      rw [stage] at attentive
      obtain ⟨told, heard, alike⟩ := attentive
      obtain ⟨id, delivering⟩ := Call.handOver_stage { session.call.note event with inbound } update
      rw [delivering]
      exact ⟨_, told ++ [update], asked, by simpa using Inbound.listen_taken heard taken,
        by simpa using alike.concat update (some id)⟩
  | @restarted lastNumber stage asked =>
      rw [stage] at attentive
      obtain ⟨told, heard, alike⟩ := attentive
      obtain ⟨id, delivering⟩ :=
        Call.handOver_stage { session.call with inbound := {} } (restartedUpdate lastNumber)
      rw [delivering]
      exact ⟨_, told ++ [restartedUpdate lastNumber], asked,
        by simpa [hear] using Inbound.listen_concat heard (.restarted lastNumber),
        by simpa using alike.concat (restartedUpdate lastNumber) (some id)⟩
  | delivered stage asked =>
      rw [stage] at attentive
      obtain ⟨offered, told, same, heard, alike⟩ := attentive
      rw [asked, Action.deliver.injEq] at same
      subst same
      exact ⟨told, heard, by simpa using alike⟩

/-- What a call is before its first step. -/
structure Fresh (call : Call) : Prop where
  stage_eq : call.stage = .following
  inbound_eq : call.inbound = {}
  controller_eq :
    call.controller =
      { policy := call.controller.policy
        key := call.controller.key
        input := call.controller.input }

/-- A fresh call holds no update. -/
theorem Fresh.poised {call : Call} (fresh : Fresh call) : call.Poised := by
  simp [Call.Poised, fresh.stage_eq]

/-- A call that can be started is fresh, and its input is built from what it was given. -/
theorem fresh_of_start
    {settings : CallSettings}
    {messages : List ChatMessage}
    {options : Options}
    {supply : IdSupply}
    {call : Call}
    (started : Call.start settings messages options supply = .ok call) :
    Fresh call ∧
      call.controller.key = Call.keyOf options call.controller.input ∧
      ∃ rest,
        buildRunInput messages options settings.registry supply =
          .ok (call.controller.input, rest) := by
  rw [Call.start] at started
  cases built : buildRunInput messages options settings.registry supply with
  | error error =>
      simp [built, bind, Except.bind] at started
  | ok result =>
      obtain ⟨input, rest⟩ := result
      simp only [built, bind, Except.bind, Except.ok.injEq] at started
      subst started
      exact ⟨⟨rfl, rfl, rfl⟩, rfl, rest, rfl⟩

theorem start_poised
    {call : Call}
    (fresh : Fresh call)
    (memory : Memory) :
    (start call memory).call.Poised :=
  fresh.poised

/-- The machine of a call is always at what its items tell. -/
theorem attentive_run
    {call : Call}
    (fresh : Fresh call)
    (memory : Memory)
    (moves : List Move) :
    ((start call memory).run moves).Attentive := by
  refine run_keeps Attentive ?_ ?_ fresh.poised ?_ moves
  · intro session exchange? update? call memory attentive taken
    exact attentive.transition taken
  · intro session memory attentive same
    exact attentive
  · rw [Attentive, start, fresh.stage_eq]
    exact ⟨[], by rw [fresh.inbound_eq]; rfl, rfl⟩

/-- The stream below a fresh call is fresh. -/
theorem stream_start
    {call : Call}
    (fresh : Fresh call)
    (memory : Memory) :
    (start call memory).stream =
      .start call.controller.policy call.controller.key call.controller.input memory := by
  rw [stream, start, Session.start, ← fresh.controller_eq]

/-- The key of a call with a conversation id is this id. -/
theorem keyOf_eq
    {options : Options}
    {id : String}
    (named : id ≠ "")
    (addressed : options.conversationId = some id)
    (input : RunInput) :
    Call.keyOf options input = id := by
  simp [Call.keyOf, addressed, nonempty?, named]

/-- The stream below a call under a conversation id is a stream under this id. -/
theorem stream_of_start
    {settings : CallSettings}
    {messages : List ChatMessage}
    {options : Options}
    {supply : IdSupply}
    {call : Call}
    {id : String}
    (named : id ≠ "")
    (addressed : options.conversationId = some id)
    (started : Call.start settings messages options supply = .ok call)
    (memory : Memory)
    (moves : List Move) :
    ∃ policy input streamMoves,
      ((start call memory).run moves).stream =
        (Session.start policy id input memory).run streamMoves := by
  obtain ⟨fresh, key, -⟩ := fresh_of_start started
  obtain ⟨streamMoves, ran⟩ := stream_run (start_poised fresh memory) moves
  rw [stream_start fresh, key, keyOf_eq named addressed] at ran
  exact ⟨_, _, streamMoves, ran⟩

/-- What calls leave behind in a store is left behind by the streams below them. -/
theorem Left.streams
    {settings : CallSettings}
    {id : String}
    {memory : Memory}
    (named : id ≠ "")
    (left : Left settings id memory) :
    Session.Left id memory := by
  induction left with
  | fresh empty =>
      exact .fresh empty
  | @call memory messages options supply call moves _ addressed started inductionHypothesis =>
      obtain ⟨policy, input, streamMoves, ran⟩ :=
        stream_of_start named addressed started memory moves
      have same :
          ((start call memory).run moves).memory =
            ((Session.start policy id input memory).run streamMoves).memory :=
        congrArg Session.memory ran
      rw [same]
      exact .run policy input streamMoves inductionHypothesis

end CallSession

end AgentWire.Client

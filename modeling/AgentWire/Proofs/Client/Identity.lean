import AgentWire.Proofs.Client.CallSession

namespace AgentWire

/-!
# One conversation id for a call

The id of a call is a function of what its caller gave and of the events up to the one
behind the first update (`idOf`, `opening`).  `Addressed` says where a call stands with it:
before the first update nothing is chosen and everything reported was noted, and from then
on every update carries the id that was chosen.
-/

/-- A text that counts as present is not empty. -/
theorem ne_empty_of_nonempty?
    {text id : String}
    (present : nonempty? text = some id) :
    id ≠ "" := by
  unfold nonempty? at present
  split at present
  · cases present
  · next filled =>
    cases present
    rintro rfl
    exact filled rfl

/-- A new id is not empty. -/
theorem IdSupply.fresh_ne_empty (supply : IdSupply) : supply.fresh.1 ≠ "" := by
  intro empty
  have length := congrArg String.toList empty
  simp [IdSupply.fresh, IdSupply.idAt, IdSupply.hexPlaces] at length

namespace Client

open Chat (ChatMessage Update)
open Resume (Memory)

/-- The conversation id that an event reports, if it starts or ends a run. -/
def reportedId? (event : Event) : Option String :=
  match event.body with
  | .runStarted threadId _ => nonempty? threadId
  | .runFinished threadId _ _ => nonempty? threadId
  | _ => none

/-- The caller's id, or else the first one that some events report, or else a made one. -/
def idOf (given : Option String) (events : List Event) (made : String) : String :=
  ((given.bind nonempty?).or (events.findSome? reportedId?)).getD made

/-- The conversation id of a call is not empty. -/
theorem idOf_ne_empty
    {made : String}
    (named : made ≠ "")
    (given : Option String)
    (events : List Event) :
    idOf given events made ≠ "" := by
  rw [idOf]
  cases chosen : (given.bind nonempty?).or (events.findSome? reportedId?) with
  | none =>
      exact named
  | some id =>
      rcases Option.or_eq_some_iff.mp chosen with supplied | ⟨-, reported⟩
      · obtain ⟨text, -, present⟩ := Option.bind_eq_some_iff.mp supplied
        exact ne_empty_of_nonempty? present
      · obtain ⟨event, -, reports⟩ := List.exists_of_findSome?_eq_some reported
        unfold reportedId? at reports
        split at reports
        · exact ne_empty_of_nonempty? reports
        · exact ne_empty_of_nonempty? reports
        · cases reports

/-! ### What a call has heard when it hands over its first update -/

namespace Inbound

variable
  {machine last : Inbound}
  {items : List Delivery}
  {past told : List Update}

/-- The events up to the one behind the first update; the update of a restart has none. -/
def opening (machine : Inbound) : List Delivery → List Event
  | [] => []
  | .restarted _ :: _ => []
  | .event event :: rest =>
      match machine.apply event with
      | .ok (next, none) => event :: next.opening rest
      | _ => [event]

/-- Items tell an update. -/
def Telling (items : List Delivery) : Prop :=
  ∃ machine told, listen items = .ok (machine, told) ∧ told ≠ []

/-- What a machine becomes of an item that it takes, and the update that the item tells. -/
theorem hear_cases
    {next : Inbound}
    {item : Delivery}
    (taken : hear (machine, past) item = .ok (next, told)) :
    (∃ event update?,
      item = .event event ∧
        machine.apply event = .ok (next, update?) ∧
        told = past ++ update?.toList) ∨
      ∃ lastNumber,
        item = .restarted lastNumber ∧ told = past ++ [restartedUpdate lastNumber] := by
  cases item with
  | restarted lastNumber =>
      cases taken
      exact .inr ⟨lastNumber, rfl, rfl⟩
  | event event =>
      cases applied : machine.apply event with
      | error error =>
          simp [hear, applied, bind, Except.bind] at taken
      | ok result =>
          obtain ⟨reached, update?⟩ := result
          simp only [hear, applied, bind, Except.bind, Except.ok.injEq, Prod.mk.injEq] at taken
          obtain ⟨rfl, rfl⟩ := taken
          exact .inl ⟨event, update?, rfl, applied, rfl⟩

/-- To hear items is to hear the first one and then the others. -/
theorem hear_cons
    {item : Delivery}
    (heard : (item :: items).foldlM hear (machine, past) = .ok (last, told)) :
    ∃ next middle,
      hear (machine, past) item = .ok (next, middle) ∧
        items.foldlM hear (next, middle) = .ok (last, told) := by
  rw [List.foldlM_cons] at heard
  cases taken : hear (machine, past) item with
  | error error =>
      rw [taken] at heard
      cases heard
  | ok result =>
      rw [taken] at heard
      exact ⟨result.1, result.2, rfl, heard⟩

/-- Updates that were told stay told. -/
theorem prefix_of_heard
    (heard : items.foldlM hear (machine, past) = .ok (last, told)) :
    past <+: told := by
  induction items generalizing machine past with
  | nil =>
      cases heard
      exact List.prefix_rfl
  | cons item rest inductionHypothesis =>
      obtain ⟨next, middle, taken, heardRest⟩ := hear_cons heard
      refine List.IsPrefix.trans ?_ (inductionHypothesis heardRest)
      rcases hear_cases taken with ⟨event, update?, -, -, rfl⟩ | ⟨lastNumber, -, rfl⟩ <;>
        exact List.prefix_append past _

/-- Behind items that tell nothing, the first update is still to come. -/
theorem opening_append_of_silent
    (heard : items.foldlM hear (machine, []) = .ok (last, []))
    (more : List Delivery) :
    machine.opening (items ++ more) = machine.opening items ++ last.opening more := by
  induction items generalizing machine with
  | nil =>
      cases heard
      rfl
  | cons item rest inductionHypothesis =>
      obtain ⟨next, middle, taken, heardRest⟩ := hear_cons heard
      obtain rfl := List.prefix_nil.mp (prefix_of_heard heardRest)
      rcases hear_cases taken with ⟨event, update?, rfl, applied, silent⟩ | ⟨_, -, told⟩
      · cases update? with
        | some update =>
            cases silent
        | none =>
            rw [List.cons_append, opening, opening, applied]
            exact congrArg (event :: ·) (inductionHypothesis heardRest)
      · cases told

/-- Behind items that tell an update, the first update is known. -/
theorem opening_append_of_telling
    (heard : items.foldlM hear (machine, []) = .ok (last, told))
    (tells : told ≠ [])
    (more : List Delivery) :
    machine.opening (items ++ more) = machine.opening items := by
  induction items generalizing machine with
  | nil =>
      cases heard
      exact absurd rfl tells
  | cons item rest inductionHypothesis =>
      obtain ⟨next, middle, taken, heardRest⟩ := hear_cons heard
      rcases hear_cases taken with ⟨event, update?, rfl, applied, rfl⟩ | ⟨_, rfl, -⟩
      · cases update? with
        | some update =>
            rw [List.cons_append, opening, opening, applied]
        | none =>
            rw [List.cons_append, opening, opening, applied]
            exact congrArg (event :: ·) (inductionHypothesis heardRest)
      · rfl

/-- Once an item tells of the conversation, nothing behind it changes what is known. -/
theorem Telling.opening_eq
    {more : List Delivery}
    (telling : Telling items)
    (initial : items <+: more) :
    opening {} more = opening {} items := by
  obtain ⟨machine, told, heard, tells⟩ := telling
  obtain ⟨rest, rfl⟩ := initial
  exact opening_append_of_telling heard tells rest

end Inbound

/-! ### When a call chooses -/

namespace Identity

variable
  {identity : Identity}
  {id : String}

/-- The id that stands, or that is chosen when the first update is handed over. -/
def choice (identity : Identity) (made : String) : String :=
  identity.resolved.getD ((identity.clientId.or identity.serverId).getD made)

/-- An id that was chosen is kept whatever the server reports. -/
theorem observe_of_chosen
    (chosen : identity.resolved = some id)
    (event : Event) :
    identity.observe event = identity := by
  unfold observe
  split <;>
    simp [observeId, chosen]

/-- Before the choice, the first id that is reported is noted. -/
theorem observe_of_unchosen
    (unchosen : identity.resolved = none)
    (event : Event) :
    identity.observe event =
      { identity with serverId := identity.serverId.or (reportedId? event) } := by
  obtain ⟨clientId, serverId, resolved⟩ := identity
  cases unchosen
  unfold observe reportedId?
  cases serverId <;>
    split <;>
      simp_all [observeId]

end Identity

/-- The call hands over the update under the id that it has chosen. -/
theorem Call.handOver_eq (call : Call) (update : Update) :
    let id := call.identity.choice call.supply.fresh.1
    ∃ supply,
      call.handOver update =
        { call with
          identity := { call.identity with resolved := some id }
          supply
          stage := .delivering { update with conversationId := some id } } := by
  obtain ⟨controller, ⟨clientId, serverId, resolved⟩, inbound, supply, tapped, stage⟩ := call
  cases resolved with
  | some id =>
      exact ⟨supply, rfl⟩
  | none =>
      cases known : clientId.or serverId with
      | some id =>
          refine ⟨supply, ?_⟩
          simp [Call.handOver, Identity.stamp, Identity.conversationId, Identity.choice, known]
      | none =>
          refine ⟨supply.fresh.2, ?_⟩
          simp [Call.handOver, Identity.stamp, Identity.conversationId, Identity.choice, known]

/-- The items of the stream that stay handed over. -/
theorem Transition.yielded_prefix
    {controller next : Controller}
    {memory after : Memory}
    {exchange : Exchange}
    (taken : Transition controller memory exchange next after)
    (history : List Exchange) :
    Session.yielded { controller, memory, history } <+:
      Session.yielded { controller := next, memory := after, history := history ++ [exchange] } := by
  have offered :
      Session.offered? { controller, memory, history } = exchange.delivery? := by
    cases taken <;>
      simp_all [Session.offered?, Controller.action, Exchange.delivery?]
  rw [Session.yielded, Session.yielded, Session.deliveries_concat, offered]
  exact List.prefix_append _ _

namespace CallSession

open Inbound (Telling opening)

/-- An id is the one that items tell, the first update being among them. -/
def Chosen (given : Option String) (made : String) (items : List Delivery) (id : String) : Prop :=
  ∃ first, first <+: items ∧ Telling first ∧ id = idOf given (opening {} first) made

/--
Before the first update of a call its id is not chosen, and what was reported first is noted.
From then on the id is the one that the events up to the first update tell.
-/
structure Addressed (given : Option String) (made : String) (session : CallSession) : Prop where
  clientId_eq : session.call.identity.clientId = given.bind nonempty?
  unchosen :
    session.call.identity.resolved = none →
    session.updates = [] ∧
      session.call.offered? = none ∧
      (session.call.stage = .following →
        session.call.supply.fresh.1 = made ∧
          session.call.identity.serverId =
            (opening {} session.deliveries).findSome? reportedId?)
  chosen :
    ∀ id,
      session.call.identity.resolved = some id →
      Chosen given made session.stream.yielded id ∧
        ∀ update ∈ session.updates ++ session.call.offered?.toList,
          update.conversationId = some id

variable
  {given : Option String}
  {made id : String}
  {session : CallSession}

/-- An id that was chosen stays the chosen one. -/
theorem Chosen.mono
    {items more : List Delivery}
    (chosen : Chosen given made items id)
    (initial : items <+: more) :
    Chosen given made more id := by
  obtain ⟨first, among, telling, same⟩ := chosen
  exact ⟨first, among.trans initial, telling, same⟩

/-- The id that was chosen is the one by the rule. -/
theorem Chosen.eq_idOf
    {items : List Delivery}
    (chosen : Chosen given made items id) :
    id = idOf given (opening {} items) made := by
  obtain ⟨first, among, telling, rfl⟩ := chosen
  rw [telling.opening_eq among]

/-- The items that were handed over stay handed over. -/
theorem yielded_prefix
    {exchange? : Option Exchange}
    {update? : Option Update}
    {call : Call}
    {memory : Memory}
    (taken : CallTransition session.call session.memory exchange? update? call memory)
    (updates : List Update) :
    session.stream.yielded <+:
      (stream { call, memory, history := session.history ++ exchange?.toList, updates }).yielded := by
  rcases taken.stream with ⟨rfl, same, rfl⟩ | ⟨exchange, rfl, goesOn⟩
  · simp [stream, Session.yielded, Session.deliveries, Session.offered?, same]
  · exact goesOn.yielded_prefix session.history

/-- An update is handed over under the id that was chosen, or that is chosen for it. -/
theorem Addressed.handOver
    (call : Call)
    (memory : Memory)
    {history : List Exchange}
    {updates : List Update}
    {item : Delivery}
    (clientId_eq : call.identity.clientId = given.bind nonempty?)
    (asked : call.controller.action = .deliver item)
    (telling : Telling (history.filterMap Exchange.delivery? ++ [item]))
    (unchosen :
      call.identity.resolved = none →
      updates = [] ∧
        call.supply.fresh.1 = made ∧
        call.identity.serverId =
          (opening {} (history.filterMap Exchange.delivery? ++ [item])).findSome? reportedId?)
    (chosen :
      ∀ id,
        call.identity.resolved = some id →
        Chosen given made (history.filterMap Exchange.delivery? ++ [item]) id ∧
          ∀ update ∈ updates, update.conversationId = some id)
    (update : Update) :
    Addressed given made { call := call.handOver update, memory, history, updates } := by
  let id := call.identity.choice call.supply.fresh.1
  have standing :
      Chosen given made (history.filterMap Exchange.delivery? ++ [item]) id ∧
        ∀ update ∈ updates, update.conversationId = some id := by
    cases before : call.identity.resolved with
    | some earlier =>
        have same : id = earlier := by simp [id, Identity.choice, before]
        exact same ▸ chosen earlier before
    | none =>
        obtain ⟨rfl, supplied, noted⟩ := unchosen before
        refine ⟨⟨_, List.prefix_rfl, telling, ?_⟩, by simp⟩
        simp [id, Identity.choice, idOf, before, clientId_eq, noted, supplied]
  obtain ⟨supply, handed⟩ := call.handOver_eq update
  have yielded :
      (stream { call := call.handOver update, memory, history, updates }).yielded =
        history.filterMap Exchange.delivery? ++ [item] := by
    simp [handed, stream, Session.yielded, Session.deliveries, Session.offered?, asked]
  refine ⟨by simp [handed, clientId_eq], by simp [handed], ?_⟩
  intro other resolved
  obtain rfl : id = other := by simpa [handed] using resolved
  rw [yielded]
  refine ⟨standing.1, ?_⟩
  intro handedOver member
  rcases List.mem_append.mp member with earlier | now
  · exact standing.2 handedOver earlier
  · simp [handed, Call.offered?] at now
    rw [now]

/-- A call that has handed over no update so far has heard of none. -/
theorem silent_of_unchosen
    (attentive : session.Attentive)
    (stage : session.call.stage = .following)
    (nothing : session.updates = []) :
    Inbound.listen session.deliveries = .ok (session.call.inbound, []) := by
  rw [Attentive, stage] at attentive
  obtain ⟨told, heard, alike⟩ := attentive
  rw [nothing, Alike, List.map_nil, eq_comm, List.map_eq_nil_iff] at alike
  rw [heard, alike]

/-- What was reported up to an event that arrives before the first update. -/
theorem Addressed.noted
    (addressed : Addressed given made session)
    (attentive : session.Attentive)
    (stage : session.call.stage = .following)
    (unchosen : session.call.identity.resolved = none)
    (event : Event) :
    session.updates = [] ∧
      session.call.supply.fresh.1 = made ∧
      (session.call.identity.observe event).serverId =
        (opening {} (session.deliveries ++ [.event event])).findSome? reportedId? := by
  obtain ⟨nothing, -, standing⟩ := addressed.unchosen unchosen
  obtain ⟨supplied, noted⟩ := standing stage
  have silent := silent_of_unchosen attentive stage nothing
  have first : session.call.inbound.opening [.event event] = [event] := by
    unfold opening opening
    split <;> rfl
  refine ⟨nothing, supplied, ?_⟩
  rw [Identity.observe_of_unchosen unchosen, Inbound.opening_append_of_silent silent, first,
    List.findSome?_append, noted, List.findSome?_singleton]

/-- What is noted of an event is the id that the server reports, if no id was chosen. -/
theorem Addressed.note
    (addressed : Addressed given made session)
    (event : Event) :
    (session.call.note event).identity.clientId = given.bind nonempty? ∧
      (session.call.note event).identity.resolved = session.call.identity.resolved := by
  have same := addressed.clientId_eq
  cases resolved : session.call.identity.resolved with
  | some id => simp [Call.note, Identity.observe_of_chosen resolved, same, resolved]
  | none => simp [Call.note, Identity.observe_of_unchosen resolved, same, resolved]

/-- A call that goes on without a new update leaves the id that was chosen as it is. -/
theorem Addressed.goOn
    {call : Call}
    {memory : Memory}
    {history : List Exchange}
    (addressed : Addressed given made session)
    (clientId_eq : call.identity.clientId = given.bind nonempty?)
    (resolved_eq : call.identity.resolved = session.call.identity.resolved)
    (offers : call.offered? = none)
    (kept :
      session.stream.yielded <+:
        (stream { call, memory, history, updates := session.updates }).yielded)
    (noted :
      call.identity.resolved = none →
      call.stage = .following →
      call.supply.fresh.1 = made ∧
        call.identity.serverId =
          (opening {} (history.filterMap Exchange.delivery?)).findSome? reportedId?) :
    Addressed given made
      { call, memory, history, updates := session.updates ++ session.call.offered?.toList } where
  clientId_eq := clientId_eq
  unchosen := by
    intro unchosen
    obtain ⟨nothing, silent, -⟩ := addressed.unchosen (resolved_eq ▸ unchosen)
    exact ⟨by simp [nothing, silent], offers, noted unchosen⟩
  chosen := by
    intro id resolved
    obtain ⟨chosen, same⟩ := addressed.chosen id (resolved_eq ▸ resolved)
    exact ⟨chosen.mono kept, by simpa [offers] using same⟩

/-- A transition keeps all updates under the conversation id of the call. -/
theorem Addressed.transition
    {exchange? : Option Exchange}
    {update? : Option Update}
    {call : Call}
    {memory : Memory}
    (addressed : Addressed given made session)
    (attentive : session.Attentive)
    (taken : CallTransition session.call session.memory exchange? update? call memory) :
    Addressed given made
      { call
        memory
        history := session.history ++ exchange?.toList
        updates := session.updates ++ update?.toList } := by
  have kept := yielded_prefix taken session.updates
  have before : session.history.filterMap Exchange.delivery? = session.deliveries := rfl
  -- An item that is being handed over is yielded already, but not yet delivered.
  have yielded {item : Delivery} (asked : session.call.controller.action = .deliver item) :
      session.stream.yielded = session.deliveries ++ [item] := by
    simp [stream, deliveries, Session.yielded, Session.offered?, asked]
  have offersNothing (stage : session.call.stage = .following) :
      session.call.offered? = none := by
    simp [Call.offered?, stage]
  cases taken with
  | followed stage taken silent =>
      rw [← offersNothing stage]
      refine addressed.goOn addressed.clientId_eq rfl (offersNothing stage) kept ?_
      intro unchosen following
      rw [List.filterMap_append, before]
      simpa [silent] using (addressed.unchosen unchosen).2.2 stage
  | cancelled stage =>
      rw [← offersNothing stage]
      exact addressed.goOn addressed.clientId_eq rfl rfl kept fun _ following => by cases following
  | @refused event _ stage asked refused =>
      obtain ⟨client, resolved⟩ := addressed.note event
      rw [← offersNothing stage]
      exact addressed.goOn client resolved rfl kept fun _ following => by cases following
  | @silent event inbound stage asked taken =>
      obtain ⟨client, resolved⟩ := addressed.note event
      rw [← offersNothing stage]
      refine addressed.goOn client resolved rfl kept ?_
      intro unchosen following
      obtain ⟨-, supplied, noted⟩ := addressed.noted attentive stage (resolved ▸ unchosen) event
      refine ⟨supplied, ?_⟩
      rw [List.filterMap_append, before]
      exact noted
  | @told event inbound update stage asked taken =>
      obtain ⟨client, resolved⟩ := addressed.note event
      have telling : Telling (session.deliveries ++ [.event event]) := by
        rw [Attentive, stage] at attentive
        obtain ⟨told, heard, -⟩ := attentive
        exact ⟨_, _, Inbound.listen_taken heard taken, by simp⟩
      rw [Option.toList_none, List.append_nil, Option.toList_none, List.append_nil]
      refine Addressed.handOver { session.call.note event with inbound } session.memory
        client asked telling ?_ ?_ update
      · intro unchosen
        exact addressed.noted attentive stage (resolved ▸ unchosen) event
      · intro id chosen
        obtain ⟨stands, same⟩ := addressed.chosen id (resolved ▸ chosen)
        rw [yielded asked] at stands
        exact ⟨stands, fun update member => same update (List.mem_append_left _ member)⟩
  | @restarted lastNumber stage asked =>
      have telling : Telling (session.deliveries ++ [.restarted lastNumber]) := by
        rw [Attentive, stage] at attentive
        obtain ⟨told, heard, -⟩ := attentive
        exact ⟨_, _, Inbound.listen_concat heard _, by simp⟩
      rw [Option.toList_none, List.append_nil, Option.toList_none, List.append_nil]
      refine Addressed.handOver { session.call with inbound := {} } session.memory
        addressed.clientId_eq asked telling ?_ ?_ _
      · intro unchosen
        obtain ⟨nothing, -, standing⟩ := addressed.unchosen unchosen
        obtain ⟨supplied, noted⟩ := standing stage
        have silent := silent_of_unchosen attentive stage nothing
        -- A restart that comes before any update announces no id.
        have same :
            opening {} (session.deliveries ++ [.restarted lastNumber]) =
              opening {} session.deliveries := by
          rw [Inbound.opening_append_of_silent silent, opening, List.append_nil]
        exact ⟨nothing, supplied, same ▸ noted⟩
      · intro id chosen
        obtain ⟨stands, same⟩ := addressed.chosen id chosen
        rw [yielded asked] at stands
        exact ⟨stands, fun update member => same update (List.mem_append_left _ member)⟩
  | @delivered update item stage asked =>
      have offers : session.call.offered? = some update := by
        simp [Call.offered?, stage]
      rw [← offers]
      refine addressed.goOn addressed.clientId_eq rfl rfl kept ?_
      intro unchosen
      obtain ⟨-, silent, -⟩ := addressed.unchosen unchosen
      cases offers.symm.trans silent

/-- The id of a call does not depend on its store. -/
theorem Addressed.elsewhere
    (addressed : Addressed given made session)
    (memory : Memory) :
    Addressed given made { session with memory } :=
  ⟨addressed.clientId_eq, addressed.unchosen, addressed.chosen⟩

/-- A call starts with what its caller gave, and with nothing chosen. -/
theorem addressed_start
    {settings : CallSettings}
    {messages : List ChatMessage}
    {options : Options}
    {supply : IdSupply}
    {call : Call}
    (started : Call.start settings messages options supply = .ok call)
    (memory : Memory) :
    Addressed options.conversationId call.supply.fresh.1 (start call memory) := by
  rw [Call.start] at started
  cases built : buildRunInput messages options settings.registry supply with
  | error error =>
      simp [built, bind, Except.bind] at started
  | ok result =>
      simp only [built, bind, Except.bind, Except.ok.injEq] at started
      subst started
      exact ⟨rfl, fun _ => ⟨rfl, rfl, fun _ => ⟨rfl, rfl⟩⟩, fun _ chosen => by cases chosen⟩

/-- Whatever happens to a call, its updates carry the id by the rule. -/
theorem addressed_run
    {settings : CallSettings}
    {messages : List ChatMessage}
    {options : Options}
    {supply : IdSupply}
    {call : Call}
    (started : Call.start settings messages options supply = .ok call)
    (memory : Memory)
    (moves : List Move) :
    Addressed options.conversationId call.supply.fresh.1 ((start call memory).run moves) := by
  have fresh := (fresh_of_start started).1
  have both :
      Addressed options.conversationId call.supply.fresh.1 ((start call memory).run moves) ∧
        ((start call memory).run moves).Attentive := by
    refine run_keeps
      (fun session =>
        Addressed options.conversationId call.supply.fresh.1 session ∧ session.Attentive)
      ?_ ?_ fresh.poised ⟨addressed_start started memory, attentive_run fresh memory []⟩ moves
    · intro session exchange? update? call memory before taken
      exact ⟨before.1.transition before.2 taken, before.2.transition taken⟩
    · intro session memory before _
      exact ⟨before.1.elsewhere memory, before.2⟩
  exact both.1

/-- An update that a call hands over carries the id that its items tell. -/
theorem Addressed.chosen_of_handed
    {update : Update}
    (addressed : Addressed given made session)
    (handed : update ∈ session.updates ++ session.call.offered?.toList) :
    ∃ id, Chosen given made session.stream.yielded id ∧ update.conversationId = some id := by
  cases resolved : session.call.identity.resolved with
  | none =>
      obtain ⟨nothing, silent, -⟩ := addressed.unchosen resolved
      simp [nothing, silent] at handed
  | some id =>
      obtain ⟨chosen, same⟩ := addressed.chosen id resolved
      exact ⟨id, chosen, same update handed⟩

end CallSession

end Client

end AgentWire

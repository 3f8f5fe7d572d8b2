import AgentWire.Proofs.Client.TurnSession

namespace AgentWire.Client

/-!
# Rounds of a turn

A round is a call and the functions that are run behind it.  `Inquiry` is what was
asked of a call and what it has handed over, `Errand` is one function that was run.
Whatever the calls, the functions and the consumer do, behind a call that ends
without an error a turn is done, or it runs each pending function once, in order,
and then asks again with the history that this gives (`Follows`).

`TurnStanding` is the invariant of a turn at each of its stages, and `Serving` is the
invariant of a turn that runs functions.
-/

open Chat (ChatMessage ContentItem FunctionCall Payload Response Update)

/-- An update as a turn with a conversation id hands it over. -/
def stampedAs (turnId : Option String) (update : Update) : Update :=
  { update with conversationId := turnId }

/-- An update arrives and is handed over. -/
def hearing (turnId : Option String) (update : Update) : List TurnExchange :=
  [⟨.pull, .update update⟩, ⟨.deliver (stampedAs turnId update), .done⟩]

/-- What was asked of a call, and the updates that it has handed over. -/
structure Inquiry where
  messages : List ChatMessage
  options : Options
  /-- The conversation id of the turn. -/
  turnId : Option String
  heard : List Update

namespace Inquiry

/-- The call, as far as it has got. -/
def exchanges (inquiry : Inquiry) : List TurnExchange :=
  ⟨.ask inquiry.messages inquiry.options, .done⟩ ::
    inquiry.heard.flatMap (hearing inquiry.turnId)

/-- The function calls without a result. -/
def pending (inquiry : Inquiry) : List FunctionCall :=
  pendingIn inquiry.heard

end Inquiry

/-- A function that was run: its call, what it returned, and the id of the update about it. -/
structure Errand where
  call : FunctionCall
  value : Payload
  messageId : String

namespace Errand

/-- The result as an item. -/
def item (errand : Errand) : ContentItem :=
  .result ⟨errand.call.callId, errand.value⟩

/-- The result as a message of the next call. -/
def message (errand : Errand) : ChatMessage where
  role := .tool
  contents := [errand.item]

/-- The result as an update of the turn. -/
def update (turnId : Option String) (errand : Errand) : Update where
  role := .tool
  contents := [errand.item]
  messageId := some errand.messageId
  conversationId := turnId

/-- The turn is not cancelled, the function is run, and its result is handed over at once. -/
def exchanges (turnId : Option String) (errand : Errand) : List TurnExchange :=
  [⟨.check, .done⟩, ⟨.invoke errand.call, .returned errand.value⟩,
   ⟨.deliver (errand.update turnId), .done⟩]

end Errand

/-- The next call: the history goes on with the updates of the last one and the results. -/
def Inquiry.next (inquiry : Inquiry) (errands : List Errand) : TurnAction :=
  .ask
    (inquiry.messages ++ historyFrom inquiry.heard ++ errands.map Errand.message)
    { inquiry.options with conversationId := none }

/--
Exchanges, and the action behind them, that follow some steps and then a next
action.  They may have got anywhere, and end early only where a step fails.
-/
inductive Follows (steps : List TurnExchange) (next : TurnAction) :
    List TurnExchange → TurnAction → Prop where
  /-- A step is under way. -/
  | amid {past rest : List TurnExchange} {action : TurnAction} {answer : TurnAnswer} :
      steps = past ++ ⟨action, answer⟩ :: rest →
      Follows steps next past action
  /-- The next action is due. -/
  | through : Follows steps next steps next
  /-- The next action was answered, and anything came behind it. -/
  | beyond {answer : TurnAnswer} {rest : List TurnExchange} {action : TurnAction} :
      Follows steps next (steps ++ ⟨next, answer⟩ :: rest) action
  /-- A step has failed. -/
  | broken {past rest : List TurnExchange} {action : TurnAction} {answer : TurnAnswer}
      {error : ClientError} :
      steps = past ++ ⟨action, answer⟩ :: rest →
      Follows steps next (past ++ [⟨action, .failed error⟩]) (.fail error)

/-- How many calls were started. -/
def callCount (history : List TurnExchange) : Nat :=
  history.countP (·.action.isAsk)

/-! ### The conversation id of an update does not matter for what is sent back -/

/-- A message takes the same contents from an update under any conversation id. -/
theorem addContents_stampedAs
    (messages : List ChatMessage)
    (turnId : Option String)
    (update : Update) :
    Chat.addContents messages (stampedAs turnId update) = Chat.addContents messages update :=
  rfl

/-- The messages of a response are collected from its updates one by one. -/
theorem messages_ofUpdates (updates : List Update) :
    (Response.ofUpdates updates).messages = updates.foldl Chat.addContents [] := by
  suffices fold :
      ∀ response : Response,
        (updates.foldl Response.add response).messages =
          updates.foldl Chat.addContents response.messages from fold {}
  induction updates with
  | nil =>
      intro response
      rfl
  | cons update rest inductionHypothesis =>
      intro response
      exact inductionHypothesis (response.add update)

/-- The history that is sent back does not depend on the conversation id. -/
theorem historyFrom_stampedAs (turnId : Option String) (updates : List Update) :
    historyFrom (updates.map (stampedAs turnId)) = historyFrom updates := by
  simp only [historyFrom, messages_ofUpdates, List.foldl_map, addContents_stampedAs]

/-- The calls that are pending do not depend on the conversation id. -/
theorem pendingIn_stampedAs (turnId : Option String) (updates : List Update) :
    pendingIn (updates.map (stampedAs turnId)) = pendingIn updates := by
  have contents :
      (updates.map (stampedAs turnId)).flatMap (·.contents) = updates.flatMap (·.contents) := by
    rw [List.flatMap_map]
    rfl
  simp only [pendingIn, callsIn, answeredIn, contents]

/-! ### Listening to a call -/

/-- What a turn knows of the call that it listens to. -/
structure Inquiry.Of (inquiry : Inquiry) (turn : Turn) : Prop where
  messages_eq : inquiry.messages = turn.history
  options_eq : inquiry.options = turn.options
  turnId_eq : inquiry.turnId = turn.turnId
  received_eq : turn.received = inquiry.heard.map (stampedAs turn.turnId)
  quiet : turn.turnId = none → inquiry.heard = []

/-- The exchanges of a turn end with the call that it listens to. -/
def Listening (turn : Turn) (history : List TurnExchange) : Prop :=
  ∃ (earlier : List TurnExchange) (inquiry : Inquiry),
    history = earlier ++ inquiry.exchanges ∧ callCount earlier = turn.made ∧ inquiry.Of turn

/-- How a turn stands to what it has asked for. -/
def TurnStanding (turn : Turn) (history : List TurnExchange) : Prop :=
  match turn.stage with
  | .asking => callCount history = turn.made ∧ turn.received = []
  | .listening => Listening turn history
  | .delivering update => Listening turn (history ++ [⟨.deliver update, .done⟩])
  | _ => callCount history = turn.made + 1

section Listening

variable
  {canInvoke : String → Bool}
  {turn next : Turn}
  {history : List TurnExchange}
  {exchange : TurnExchange}

theorem callCount_append (history more : List TurnExchange) :
    callCount (history ++ more) = callCount history + callCount more :=
  List.countP_append

theorem callCount_cons_of_ask
    {asked : TurnExchange}
    (asks : asked.action.isAsk = true)
    (rest : List TurnExchange) :
    callCount (asked :: rest) = callCount rest + 1 := by
  simp [callCount, asks]

/-- A call that is started behind as many others as a part has is started behind this part. -/
theorem ask_behind
    {part behind before after : List TurnExchange}
    {asked : TurnExchange}
    (split : part ++ behind = before ++ asked :: after)
    (asks : asked.action.isAsk = true)
    (counted : callCount before = callCount part) :
    ∃ between,
      before = part ++ between ∧ behind = between ++ asked :: after ∧ callCount between = 0 := by
  rcases List.append_eq_append_iff.mp split with ⟨between, rfl, shape⟩ | ⟨between, rfl, shape⟩
  · rw [callCount_append] at counted
    exact ⟨between, rfl, shape, by omega⟩
  · cases between with
    | nil =>
        exact ⟨[], by simp, by simpa using shape.symm, rfl⟩
    | cons first between =>
        obtain ⟨rfl, -⟩ := List.cons.inj shape
        rw [callCount_append, callCount_cons_of_ask asks] at counted
        omega

/-- A start of a call is told by how many calls were started before it. -/
theorem ask_unique
    {before after other rest : List TurnExchange}
    {asked askedToo : TurnExchange}
    (split : before ++ asked :: after = other ++ askedToo :: rest)
    (asks : asked.action.isAsk = true)
    (asksToo : askedToo.action.isAsk = true)
    (counted : callCount other = callCount before) :
    before = other ∧ asked = askedToo ∧ after = rest := by
  obtain ⟨between, rfl, shape, nothing⟩ := ask_behind split asksToo counted
  cases between with
  | nil =>
      cases shape
      simp
  | cons first between =>
      obtain ⟨rfl, -⟩ := List.cons.inj shape
      rw [callCount_cons_of_ask asks] at nothing
      cases nothing

/-- No call is started while updates are heard and handed over. -/
theorem callCount_hearing (turnId : Option String) (updates : List Update) :
    callCount (updates.flatMap (hearing turnId)) = 0 := by
  induction updates with
  | nil =>
      rfl
  | cons update rest inductionHypothesis =>
      rw [List.flatMap_cons, callCount_append, inductionHypothesis]
      rfl

/-- The exchanges of one call start one call. -/
theorem callCount_exchanges (inquiry : Inquiry) : callCount inquiry.exchanges = 1 := by
  rw [Inquiry.exchanges, callCount_cons_of_ask rfl, callCount_hearing]

/-- What a call has handed over is told by the exchanges, whatever id the turn has. -/
theorem heard_of_hearing
    {turnId other : Option String}
    {heard told : List Update}
    (same : heard.flatMap (hearing turnId) = told.flatMap (hearing other)) :
    heard = told := by
  induction heard generalizing told with
  | nil =>
      cases told with
      | nil => rfl
      | cons first later => cases same
  | cons update rest inductionHypothesis =>
      cases told with
      | nil => cases same
      | cons first later =>
          simp only [List.flatMap_cons, hearing, List.cons_append, List.nil_append,
            List.cons.injEq, TurnExchange.mk.injEq, TurnAnswer.update.injEq] at same
          obtain ⟨⟨-, rfl⟩, -, behind⟩ := same
          rw [inductionHypothesis behind]

/-- The last call of some exchanges is told by them. -/
theorem Inquiry.told_by_exchanges
    {inquiry other : Inquiry}
    {earlier before : List TurnExchange}
    (split : earlier ++ inquiry.exchanges = before ++ other.exchanges) :
    earlier = before ∧ inquiry.messages = other.messages ∧ inquiry.options = other.options ∧
      inquiry.heard = other.heard := by
  have counted : callCount before = callCount earlier := by
    have both := congrArg callCount split
    rw [callCount_append, callCount_append, callCount_exchanges, callCount_exchanges] at both
    omega
  obtain ⟨same, asked, heard⟩ := ask_unique split rfl rfl counted
  obtain ⟨messages, options⟩ : inquiry.messages = other.messages ∧
      inquiry.options = other.options := by
    simpa using asked
  exact ⟨same, messages, options, heard_of_hearing heard⟩

/-- A turn that goes to another stage still listens to the same call. -/
theorem Listening.goTo (listening : Listening turn history) (stage : TurnStage) :
    Listening (turn.goTo stage) history := by
  obtain ⟨earlier, inquiry, split, made, known⟩ := listening
  exact ⟨earlier, inquiry, split, made, known.messages_eq, known.options_eq, known.turnId_eq,
    known.received_eq, known.quiet⟩

/-- A turn that listens has started one call more than it has brought to an end. -/
theorem Listening.callCount_eq (listening : Listening turn history) :
    callCount history = turn.made + 1 := by
  obtain ⟨earlier, inquiry, rfl, made, -⟩ := listening
  rw [callCount_append, callCount_exchanges, made]

/-- The conversation id of a turn is chosen with its first update and then kept. -/
theorem settle_cases (turn : Turn) (update : Update) :
    turn.turnId ≠ none ∧ turn.settle update = turn ∨
      turn.turnId = none ∧
        ∃ id supply, turn.settle update = { turn with turnId := some id, supply } := by
  unfold Turn.settle
  split
  · next known => exact .inl ⟨by simp [known], rfl⟩
  · next unknown => exact .inr ⟨unknown, _, _, rfl⟩

/-- An update that arrives is heard and handed over. -/
theorem Listening.receive
    (listening : Listening turn history)
    (update : Update) :
    ∃ handed,
      (turn.receive update).stage = .delivering handed ∧
        Listening (turn.receive update)
          (history ++ [⟨.pull, .update update⟩] ++ [⟨.deliver handed, .done⟩]) := by
  obtain ⟨earlier, inquiry, rfl, made, known⟩ := listening
  refine ⟨stampedAs (turn.settle update).turnId update, rfl, earlier,
    { inquiry with
      turnId := (turn.settle update).turnId
      heard := inquiry.heard ++ [update] }, ?_⟩
  rcases settle_cases turn update with ⟨chosen, settled⟩ | ⟨unchosen, id, supply, settled⟩
  · have received : turn.receive update =
        { turn with
          received := turn.received ++ [stampedAs turn.turnId update]
          stage := .delivering (stampedAs turn.turnId update) } := by
      simp only [Turn.receive, settled, stampedAs]
    rw [received, settled]
    refine ⟨?_, made, known.messages_eq, known.options_eq, rfl, ?_, fun none => (chosen none).elim⟩
    · simp [Inquiry.exchanges, known.turnId_eq, hearing]
    · simp [known.received_eq]
  · -- The id is new, so nothing was heard under another one.
    have silent := known.quiet unchosen
    have received : turn.receive update =
        { turn with
          turnId := some id
          supply
          received := turn.received ++ [stampedAs (some id) update]
          stage := .delivering (stampedAs (some id) update) } := by
      simp only [Turn.receive, settled, stampedAs]
    rw [received, settled]
    refine ⟨?_, made, known.messages_eq, known.options_eq, rfl, ?_, fun none => nomatch none⟩
    · simp [Inquiry.exchanges, silent, hearing]
    · simp [known.received_eq, silent]

/-- A turn that goes on to its next function, or asks again, has its calls counted. -/
theorem turnStanding_runNext
    (turn : Turn)
    (calls : List FunctionCall)
    (counted : callCount history = turn.made + 1) :
    TurnStanding (turn.runNext calls) history := by
  cases calls with
  | nil =>
      simp only [Turn.runNext, Turn.again]
      split
      · exact ⟨counted, rfl⟩
      · exact counted
  | cons call rest =>
      exact counted

/-- A turn whose call has ended has its calls counted. -/
theorem turnStanding_close
    (counted : callCount history = turn.made + 1) :
    TurnStanding (turn.close canInvoke) history := by
  simp only [Turn.close]
  split
  · exact counted
  · exact turnStanding_runNext _ _ counted

/-- A turn has started at most one call more than it has brought to an end. -/
theorem callCount_le_of_turnStanding (standing : TurnStanding turn history) :
    callCount history ≤ turn.made + 1 := by
  cases stage : turn.stage with
  | asking =>
      rw [TurnStanding, stage] at standing
      exact standing.1 ▸ Nat.le_succ _
  | listening =>
      rw [TurnStanding, stage] at standing
      have listening : Listening turn history := standing
      exact Nat.le_of_eq listening.callCount_eq
  | delivering update =>
      rw [TurnStanding, stage] at standing
      have listening : Listening turn (history ++ [_]) := standing
      rw [← listening.callCount_eq, callCount_append]
      exact Nat.le_add_right _ _
  | checking | invoking | reporting | finished | failed =>
      rw [TurnStanding, stage] at standing
      exact Nat.le_of_eq standing

/-- Every transition keeps what a turn knows of the call that it listens to. -/
theorem turnStanding_transition
    (standing : TurnStanding turn history)
    (taken : TurnTransition canInvoke turn exchange next) :
    TurnStanding next (history ++ [exchange]) := by
  -- Only where a call is started it counts.
  have counted (silent : exchange.action.isAsk = false) :
      callCount (history ++ [exchange]) = callCount history := by
    simp [callCount, silent]
  cases taken with
  | asked stage =>
      rw [TurnStanding, stage] at standing
      exact ⟨history, ⟨turn.history, turn.options, turn.turnId, []⟩, rfl, standing.1,
        rfl, rfl, rfl, standing.2, fun _ => rfl⟩
  | refused stage =>
      rw [TurnStanding, stage] at standing
      show callCount _ = turn.made + 1
      simp [callCount, TurnAction.isAsk, ← standing.1]
  | @received update stage =>
      rw [TurnStanding, stage] at standing
      have heard : Listening turn history := standing
      obtain ⟨handed, delivering, listening⟩ := heard.receive update
      rw [TurnStanding, delivering]
      exact listening
  | closed stage =>
      rw [TurnStanding, stage] at standing
      have listening : Listening turn history := standing
      exact turnStanding_close ((counted rfl).trans listening.callCount_eq)
  | broken stage =>
      rw [TurnStanding, stage] at standing
      have listening : Listening turn history := standing
      exact (counted rfl).trans listening.callCount_eq
  | delivered stage =>
      rw [TurnStanding, stage] at standing
      have listening : Listening turn _ := standing
      exact listening.goTo .listening
  | reported stage =>
      rw [TurnStanding, stage] at standing
      exact turnStanding_runNext _ _ ((counted rfl).trans standing)
  | checked stage | returned stage | cancelled stage | failed stage =>
      rw [TurnStanding, stage] at standing
      exact (counted rfl).trans standing

end Listening

/-! ### Running functions -/

/-- The exchanges of some errands, one after the other. -/
def errandSteps (turnId : Option String) (errands : List Errand) : List TurnExchange :=
  errands.flatMap (Errand.exchanges turnId)

/--
Where a turn is with the functions behind a call: which were run, and what it has
asked for since the call has ended.
-/
def RunsAt
    (inquiry : Inquiry)
    (served : List Errand)
    (past : List TurnExchange)
    (turn : Turn) :
    Prop :=
  match turn.stage with
  | .checking call rest =>
      inquiry.pending = served.map (·.call) ++ call :: rest ∧
        past = errandSteps inquiry.turnId served
  | .invoking call rest =>
      inquiry.pending = served.map (·.call) ++ call :: rest ∧
        past = errandSteps inquiry.turnId served ++ [⟨.check, .done⟩]
  | .reporting update rest =>
      inquiry.pending = served.map (·.call) ++ rest ∧
        past ++ [⟨.deliver update, .done⟩] = errandSteps inquiry.turnId served
  | .asking | .finished =>
      inquiry.pending = served.map (·.call) ∧ past = errandSteps inquiry.turnId served
  | .failed error =>
      ∃ call rest,
        inquiry.pending = served.map (·.call) ++ call :: rest ∧
          (past = errandSteps inquiry.turnId served ++ [⟨.check, .failed error⟩] ∨
            past = errandSteps inquiry.turnId served ++
              [⟨.check, .done⟩, ⟨.invoke call, .failed error⟩])
  | .listening | .delivering _ => False

/-- A turn that runs the functions behind a call, which was the call with a number. -/
structure Serving
    (inquiry : Inquiry)
    (number : Nat)
    (served : List Errand)
    (past : List TurnExchange)
    (turn : Turn) :
    Prop where
  history_eq :
    turn.history =
      inquiry.messages ++ historyFrom inquiry.heard ++ served.map Errand.message
  turnId_eq : turn.turnId = inquiry.turnId
  runs : RunsAt inquiry served past turn
  steady :
    turn.stage ≠ .asking →
    turn.made + 1 = number ∧ turn.options = inquiry.options
  renewed :
    turn.stage = .asking →
    number < turn.limit ∧ turn.options = { inquiry.options with conversationId := none }
  spent : turn.stage = .finished → turn.limit ≤ number

section Serving

variable
  {canInvoke : String → Bool}
  {inquiry : Inquiry}
  {number : Nat}
  {served : List Errand}
  {past : List TurnExchange}
  {turn next : Turn}
  {exchange : TurnExchange}

theorem errandSteps_concat (turnId : Option String) (served : List Errand) (errand : Errand) :
    errandSteps turnId (served ++ [errand]) =
      errandSteps turnId served ++ errand.exchanges turnId := by
  simp [errandSteps]

/-- A turn that has run some functions goes on with the others, asks again or is done. -/
theorem Serving.runNext
    {calls : List FunctionCall}
    (history_eq :
      turn.history =
        inquiry.messages ++ historyFrom inquiry.heard ++ served.map Errand.message)
    (turnId_eq : turn.turnId = inquiry.turnId)
    (made_eq : turn.made + 1 = number)
    (options_eq : turn.options = inquiry.options)
    (waiting : inquiry.pending = served.map (·.call) ++ calls) :
    Serving inquiry number served (errandSteps inquiry.turnId served) (turn.runNext calls) := by
  cases calls with
  | cons call rest =>
      exact ⟨history_eq, turnId_eq, ⟨waiting, rfl⟩, fun _ => ⟨made_eq, options_eq⟩,
        nofun, nofun⟩
  | nil =>
      rw [List.append_nil] at waiting
      simp only [Turn.runNext, Turn.again, made_eq]
      split
      · next allowed =>
        exact ⟨history_eq, turnId_eq, ⟨waiting, rfl⟩, fun asking => (asking rfl).elim,
          fun _ => ⟨allowed, by rw [options_eq]⟩, nofun⟩
      · next forbidden =>
        exact ⟨history_eq, turnId_eq, ⟨waiting, rfl⟩, fun _ => ⟨made_eq, options_eq⟩,
          nofun, fun _ => Nat.not_lt.mp forbidden⟩

/-- A turn that runs functions takes one more step of them, or asks again. -/
theorem Serving.transition
    (serving : Serving inquiry number served past turn)
    (taken : TurnTransition canInvoke turn exchange next) :
    (∃ served, Serving inquiry number served (past ++ [exchange]) next) ∨
      inquiry.pending = served.map (·.call) ∧ number < turn.limit ∧
        past = errandSteps inquiry.turnId served ∧
        exchange.action = inquiry.next served := by
  obtain ⟨history_eq, turnId_eq, runs, steady, renewed, spent⟩ := serving
  rw [RunsAt] at runs
  cases taken with
  | asked stage | refused stage =>
      rw [stage] at runs
      obtain ⟨allowed, options_eq⟩ := renewed stage
      exact .inr ⟨runs.1, allowed, runs.2, by rw [Inquiry.next, history_eq, options_eq]⟩
  | received stage | closed stage | broken stage =>
      rw [stage] at runs
      exact runs.elim
  | delivered stage =>
      rw [stage] at runs
      exact runs.elim
  | checked stage =>
      rw [stage] at runs steady
      obtain ⟨waiting, pastShape⟩ := runs
      exact .inl ⟨served, history_eq, turnId_eq, ⟨waiting, by rw [pastShape]⟩,
        fun _ => steady nofun, nofun, nofun⟩
  | cancelled stage =>
      rw [stage] at runs steady
      obtain ⟨waiting, pastShape⟩ := runs
      exact .inl ⟨served, history_eq, turnId_eq, ⟨_, _, waiting, .inl (by rw [pastShape])⟩,
        fun _ => steady nofun, nofun, nofun⟩
  | failed stage =>
      rw [stage] at runs steady
      obtain ⟨waiting, pastShape⟩ := runs
      exact .inl ⟨served, history_eq, turnId_eq,
        ⟨_, _, waiting, .inr (by simp [pastShape])⟩, fun _ => steady nofun, nofun, nofun⟩
  | @returned call rest value stage =>
      rw [stage] at runs steady
      obtain ⟨waiting, pastShape⟩ := runs
      obtain ⟨made_eq, options_eq⟩ := steady nofun
      -- The function has returned, so its errand joins those that are served.
      refine .inl ⟨served ++ [⟨call, value, turn.supply.fresh.1⟩], ?_, turnId_eq, ⟨?_, ?_⟩,
        fun _ => ⟨made_eq, options_eq⟩, nofun, nofun⟩
      · simp [Turn.report, history_eq, Errand.message, Errand.item]
      · simp [waiting]
      · simp [errandSteps_concat, pastShape, Errand.exchanges, Errand.update, Errand.item,
          turnId_eq, IdSupply.fresh]
  | reported stage =>
      rw [stage] at runs steady
      obtain ⟨waiting, pastShape⟩ := runs
      obtain ⟨made_eq, options_eq⟩ := steady nofun
      rw [pastShape]
      exact .inl ⟨served, .runNext history_eq turnId_eq made_eq options_eq waiting⟩

/-- An errand that was not run yet, with any value. -/
def Errand.due (call : FunctionCall) : Errand :=
  ⟨call, .json .null, ""⟩

theorem map_call_due (served : List Errand) (calls : List FunctionCall) :
    (served ++ calls.map Errand.due).map (·.call) = served.map (·.call) ++ calls := by
  simp [Errand.due, Function.comp_def]

theorem errandSteps_append (turnId : Option String) (served more : List Errand) :
    errandSteps turnId (served ++ more) =
      errandSteps turnId served ++ errandSteps turnId more :=
  List.flatMap_append

/-- Running functions starts no call. -/
theorem callCount_errandSteps (turnId : Option String) (errands : List Errand) :
    callCount (errandSteps turnId errands) = 0 := by
  induction errands with
  | nil =>
      rfl
  | cons errand rest inductionHypothesis =>
      rw [errandSteps, List.flatMap_cons, callCount_append, ← errandSteps, inductionHypothesis]
      rfl

/-- The steps of the errands that come next, as far as they matter. -/
theorem errandSteps_due
    (turnId : Option String)
    (served : List Errand)
    (call : FunctionCall)
    (rest : List FunctionCall) :
    ∃ value behind,
      errandSteps turnId (served ++ (call :: rest).map Errand.due) =
        errandSteps turnId served ++
          ⟨.check, .done⟩ :: ⟨.invoke call, .returned value⟩ :: behind :=
  ⟨_, _, errandSteps_append turnId served ((call :: rest).map Errand.due)⟩

/-- What a turn that runs functions has done is part of running all of them. -/
theorem Serving.follows
    (serving : Serving inquiry number served past turn) :
    ∃ errands,
      errands.map (·.call) = inquiry.pending ∧
        Follows (errandSteps inquiry.turnId errands)
          (if number < turn.limit then inquiry.next errands else .finish)
          past turn.action := by
  -- The errands are those that were run, with the pending calls behind them as still due.
  obtain ⟨history_eq, turnId_eq, runs, steady, renewed, spent⟩ := serving
  rw [RunsAt] at runs
  rw [Turn.action]
  cases stage : turn.stage with
  | checking call rest =>
      rw [stage] at runs
      obtain ⟨waiting, rfl⟩ := runs
      obtain ⟨value, behind, steps⟩ := errandSteps_due inquiry.turnId served call rest
      exact ⟨_, (map_call_due _ _).trans waiting.symm, .amid steps⟩
  | invoking call rest =>
      rw [stage] at runs
      obtain ⟨waiting, rfl⟩ := runs
      obtain ⟨value, behind, steps⟩ := errandSteps_due inquiry.turnId served call rest
      exact ⟨_, (map_call_due _ _).trans waiting.symm, .amid (steps.trans (List.append_cons _ _ _))⟩
  | reporting update rest =>
      rw [stage] at runs
      obtain ⟨waiting, pastShape⟩ := runs
      have steps :
          errandSteps inquiry.turnId (served ++ rest.map Errand.due) =
            past ++ ⟨.deliver update, .done⟩ ::
              errandSteps inquiry.turnId (rest.map Errand.due) := by
        rw [errandSteps_append, ← pastShape, List.append_assoc]
        rfl
      exact ⟨_, (map_call_due _ _).trans waiting.symm, .amid steps⟩
  | failed error =>
      rw [stage] at runs
      obtain ⟨call, rest, waiting, pastShape⟩ := runs
      obtain ⟨value, behind, steps⟩ := errandSteps_due inquiry.turnId served call rest
      refine ⟨_, (map_call_due _ _).trans waiting.symm, ?_⟩
      rcases pastShape with rfl | rfl
      · exact .broken steps
      · rw [List.append_cons]
        exact .broken (steps.trans (List.append_cons _ _ _))
  | asking =>
      rw [stage] at runs
      obtain ⟨waiting, rfl⟩ := runs
      obtain ⟨allowed, options_eq⟩ := renewed stage
      refine ⟨served, waiting.symm, ?_⟩
      rw [if_pos allowed, Inquiry.next, ← history_eq, ← options_eq]
      exact .through
  | finished =>
      rw [stage] at runs
      obtain ⟨waiting, rfl⟩ := runs
      refine ⟨served, waiting.symm, ?_⟩
      rw [if_neg (Nat.not_lt.mpr (spent stage))]
      exact .through
  | listening | delivering =>
      rw [stage] at runs
      exact runs.elim

end Serving

/-- Exchanges that start a call, though their steps start none, are behind these steps. -/
theorem Follows.beyond_of_ask
    {steps past : List TurnExchange}
    {next action : TurnAction}
    (followed : Follows steps next past action)
    (quiet : callCount steps = 0)
    (asks : callCount past ≠ 0) :
    ∃ answer rest, past = steps ++ ⟨next, answer⟩ :: rest := by
  cases followed with
  | amid split =>
      rw [split, callCount_append] at quiet
      exact absurd (Nat.eq_zero_of_add_eq_zero_right quiet) asks
  | through =>
      exact absurd quiet asks
  | beyond =>
      exact ⟨_, _, rfl⟩
  | @broken before rest failing answer error split =>
      rw [split, callCount_append] at quiet
      have silent : callCount [⟨failing, .failed error⟩] = callCount [⟨failing, answer⟩] := rfl
      have first : callCount (⟨failing, answer⟩ :: rest) =
          callCount [⟨failing, answer⟩] + callCount rest :=
        callCount_append [⟨failing, answer⟩] rest
      rw [callCount_append] at asks
      omega

/-! ### Behind a call that has ended -/

/-- Whether the turn goes on behind a call: functions are pending, and all of them can be run. -/
def Inquiry.GoesOn (canInvoke : String → Bool) (inquiry : Inquiry) : Prop :=
  inquiry.pending ≠ [] ∧ ∀ call ∈ inquiry.pending, canInvoke call.name = true

/-- What comes behind a call with a number that has ended without an error. -/
inductive Behind
    (canInvoke : String → Bool)
    (limit : Nat)
    (inquiry : Inquiry)
    (number : Nat) :
    List TurnExchange → Turn → Prop where
  /-- Nothing: the turn is over. -/
  | finished {turn : Turn} :
      ¬inquiry.GoesOn canInvoke →
      turn.stage = .finished →
      Behind canInvoke limit inquiry number [] turn
  /-- Functions are run. -/
  | serving {served : List Errand} {past : List TurnExchange} {turn : Turn} :
      inquiry.GoesOn canInvoke →
      Serving inquiry number served past turn →
      turn.limit = limit →
      Behind canInvoke limit inquiry number past turn
  /-- All functions were run, and the next call was started. -/
  | asked {served : List Errand} {past : List TurnExchange} {turn : Turn} {answer : TurnAnswer} :
      inquiry.GoesOn canInvoke →
      inquiry.pending = served.map (·.call) →
      number < limit →
      Behind canInvoke limit inquiry number
        (errandSteps inquiry.turnId served ++ ⟨inquiry.next served, answer⟩ :: past) turn

section Behind

variable
  {canInvoke : String → Bool}
  {limit number : Nat}
  {inquiry : Inquiry}
  {past : List TurnExchange}
  {turn next : Turn}
  {exchange : TurnExchange}

/-- No exchange changes how many calls a turn may make. -/
theorem TurnTransition.limit_eq (taken : TurnTransition canInvoke turn exchange next) :
    next.limit = turn.limit := by
  cases taken <;>
    simp only [Turn.goTo, Turn.receive, Turn.settle, Turn.close, Turn.runNext, Turn.again,
      Turn.report]
  all_goals repeat' split
  all_goals rfl

/-- A turn starts no call beyond its limit. -/
theorem TurnTransition.made_lt
    (taken : TurnTransition canInvoke turn exchange next)
    (bounded : turn.made < turn.limit) :
    next.made < turn.limit := by
  cases taken <;>
    simp only [Turn.goTo, Turn.receive, Turn.settle, Turn.close, Turn.runNext, Turn.again,
      Turn.report]
  all_goals repeat' split
  all_goals assumption

/-- A turn fails only with the error that it was answered. -/
theorem TurnTransition.answer_of_fail
    {error : ClientError}
    (taken : TurnTransition canInvoke turn exchange next)
    (fails : next.action = .fail error) :
    exchange.answer = .failed error := by
  cases taken <;>
    simp only [Turn.action, Turn.goTo, Turn.receive, Turn.close, Turn.runNext, Turn.again,
      Turn.report] at fails
  all_goals repeat' split at fails
  all_goals grind

/-- Every exchange behind a call that has ended is one of those that may come there. -/
theorem Behind.transition
    (behind : Behind canInvoke limit inquiry number past turn)
    (taken : TurnTransition canInvoke turn exchange next) :
    Behind canInvoke limit inquiry number (past ++ [exchange]) next := by
  cases behind with
  | finished ends stage =>
      cases taken <;>
        simp_all
  | @serving served _ _ goesOn serving bound =>
      rcases serving.transition taken with ⟨served, serving⟩ | ⟨all, allowed, rfl, asks⟩
      · exact .serving goesOn serving (taken.limit_eq.trans bound)
      · obtain ⟨action, answer⟩ := exchange
        cases asks
        exact .asked goesOn all (bound ▸ allowed)
  | asked goesOn all allowed =>
      rw [List.append_assoc, List.cons_append]
      exact .asked goesOn all allowed

/--
Behind a call with a number that has ended, a turn is over, or it runs each pending
function and goes on from there, unless it has made as many calls as it may.
-/
def Inquiry.LeadsTo
    (canInvoke : String → Bool)
    (limit number : Nat)
    (inquiry : Inquiry)
    (past : List TurnExchange)
    (action : TurnAction) :
    Prop :=
  (¬inquiry.GoesOn canInvoke → past = [] ∧ action = .finish) ∧
    (inquiry.GoesOn canInvoke →
      ∃ errands,
        errands.map (·.call) = inquiry.pending ∧
          Follows (errandSteps inquiry.turnId errands)
            (if number < limit then inquiry.next errands else .finish)
            past action)

/-- What comes behind a call that has ended leads to what the turn does next. -/
theorem Behind.leadsTo (behind : Behind canInvoke limit inquiry number past turn) :
    inquiry.LeadsTo canInvoke limit number past turn.action := by
  refine ⟨?_, ?_⟩
  · intro stops
    cases behind with
    | finished ends stage =>
        exact ⟨rfl, by rw [Turn.action, stage]⟩
    | serving goesOn | asked goesOn =>
        exact absurd goesOn stops
  · intro goesOn
    cases behind with
    | finished ends =>
        exact absurd goesOn ends
    | serving goesOn serving bound =>
        rw [← bound]
        exact serving.follows
    | asked goesOn all allowed =>
        refine ⟨_, all.symm, ?_⟩
        rw [if_pos allowed]
        exact .beyond

/-- A call that the turn has listened to ends. -/
theorem behind_close
    (known : inquiry.Of turn)
    (made : turn.made + 1 = number) :
    Behind canInvoke turn.limit inquiry number [] (turn.close canInvoke) := by
  have pending : pendingIn turn.received = inquiry.pending := by
    rw [known.received_eq, pendingIn_stampedAs]
    rfl
  have history : historyFrom turn.received = historyFrom inquiry.heard := by
    rw [known.received_eq, historyFrom_stampedAs]
  simp only [Turn.close, pending, history]
  split
  · next stops =>
    refine .finished (fun goesOn => ?_) rfl
    obtain ⟨something, invocable⟩ := goesOn
    simp only [Bool.or_eq_true, List.isEmpty_iff, List.any_eq_true] at stops
    rcases stops with nothing | ⟨call, member, unknown⟩
    · exact something nothing
    · simp [invocable call member] at unknown
  · next goesOn =>
    simp only [Bool.or_eq_true, List.isEmpty_iff, List.any_eq_true, not_or, not_exists,
      not_and] at goesOn
    have invocable : inquiry.GoesOn canInvoke :=
      ⟨goesOn.1, fun call member => by simpa using goesOn.2 call member⟩
    have serving :
        Serving inquiry number [] (errandSteps inquiry.turnId [])
          ({ turn with history := turn.history ++ historyFrom inquiry.heard }.runNext
            inquiry.pending) :=
      .runNext (by simp [known.messages_eq]) known.turnId_eq.symm made known.options_eq.symm rfl
    refine .serving invocable serving ?_
    simp only [Turn.runNext, Turn.again, Turn.goTo]
    repeat' split
    all_goals rfl

end Behind

namespace TurnSession

variable
  {canInvoke : String → Bool}
  {limit : Nat}
  {session : TurnSession}

/-- What holds of a turn and all that it has asked for. -/
structure Orderly (canInvoke : String → Bool) (limit : Nat) (session : TurnSession) : Prop where
  limit_eq : session.turn.limit = limit
  bounded : session.turn.made < limit
  standing : TurnStanding session.turn session.history
  failed :
    ∀ error,
      session.turn.action = .fail error →
      ∃ action, session.history.getLast? = some ⟨action, .failed error⟩
  rounds :
    ∀ before after,
      session.history = before ++ ⟨.pull, .closed⟩ :: after →
      ∃ earlier inquiry,
        before = earlier ++ inquiry.exchanges ∧
          Behind canInvoke limit inquiry (callCount earlier + 1) after session.turn

/-- Every exchange leaves a turn orderly. -/
theorem Orderly.transition
    {exchange : TurnExchange}
    {next : Turn}
    (orderly : Orderly canInvoke limit session)
    (taken : TurnTransition canInvoke session.turn exchange next) :
    Orderly canInvoke limit { turn := next, history := session.history ++ [exchange] } where
  limit_eq := taken.limit_eq.trans orderly.limit_eq
  bounded := by
    have bounded := orderly.bounded
    rw [← orderly.limit_eq] at bounded ⊢
    exact taken.made_lt bounded
  standing := turnStanding_transition orderly.standing taken
  failed := by
    intro error fails
    refine ⟨exchange.action, ?_⟩
    rw [List.getLast?_concat, ← taken.answer_of_fail fails]
  rounds := by
    intro before after split
    rcases split_concat split with ⟨rfl, rfl, rfl⟩ | ⟨earlier, rfl, shape⟩
    · cases taken with
      | closed stage =>
          have standing := orderly.standing
          rw [TurnStanding, stage] at standing
          obtain ⟨earlier, inquiry, split, made, known⟩ := standing
          rw [← orderly.limit_eq]
          exact ⟨earlier, inquiry, split, behind_close known (by rw [made])⟩
    · obtain ⟨first, inquiry, split, behind⟩ := orderly.rounds before earlier shape
      exact ⟨first, inquiry, split, behind.transition taken⟩

/-- A turn that is started is orderly, and it may make at least one call. -/
theorem orderly_start
    (canInvoke : String → Bool)
    (limit : Nat)
    (messages : List ChatMessage)
    (options : Options)
    (supply : IdSupply) :
    Orderly canInvoke (max limit 1) (start limit messages options supply) where
  limit_eq := rfl
  bounded := Nat.lt_of_lt_of_le Nat.zero_lt_one (Nat.le_max_right limit 1)
  standing := ⟨rfl, rfl⟩
  failed := nofun
  rounds := by
    intro before after split
    simp [start] at split

/-- Whatever a turn is answered, it stays orderly. -/
theorem Orderly.run
    (orderly : Orderly canInvoke limit session)
    (answers : List TurnAnswer) :
    Orderly canInvoke limit (session.run canInvoke answers) :=
  run_keeps (Orderly canInvoke limit) (fun _ _ _ orderly taken => orderly.transition taken)
    orderly answers

/-- A turn starts with a call on the messages and options that it was given. -/
structure Opened
    (messages : List ChatMessage)
    (options : Options)
    (session : TurnSession) :
    Prop where
  unasked :
    session.history = [] →
    session.turn.action = .ask messages options
  first : ∀ first, session.history.head? = some first → first.action = .ask messages options

/-- Whatever a turn is answered, it starts with a call on what it was given. -/
theorem opened_run
    (canInvoke : String → Bool)
    (limit : Nat)
    (messages : List ChatMessage)
    (options : Options)
    (supply : IdSupply)
    (answers : List TurnAnswer) :
    Opened messages options ((start limit messages options supply).run canInvoke answers) := by
  refine run_keeps (Opened messages options) ?_ ⟨fun _ => rfl, by simp [start]⟩ answers
  intro session exchange turn opened taken
  refine ⟨fun empty => absurd empty (by simp), ?_⟩
  intro first found
  cases shape : session.history with
  | nil =>
      rw [shape] at found
      cases found
      rw [← opened.unasked shape]
      exact taken.action_eq
  | cons earliest rest =>
      rw [shape] at found
      exact opened.first first (by rw [shape]; exact found)

/-- An orderly turn has started no more calls than it may. -/
theorem Orderly.callCount_le (orderly : Orderly canInvoke limit session) :
    callCount session.history ≤ limit := by
  have counted := callCount_le_of_turnStanding orderly.standing
  exact Nat.le_trans counted orderly.bounded

/--
Whatever calls hand over and functions return: a turn starts no more calls than it
may, it asks for the first one before anything else and on what it was given, and it
fails only with an error that it is answered.  Until a call ends, the turn takes its
updates and hands each one over.  When the call ends without an error, the turn is over
if no function call is pending or one of them cannot be run; otherwise it checks for
cancellation, runs and reports each pending call, once and in order, and then asks
again with the history that this gives, unless it has made as many calls as it may.
-/
theorem pending_run_in_order
    (canInvoke : String → Bool)
    (limit : Nat)
    (messages : List ChatMessage)
    (options : Options)
    (supply : IdSupply)
    (answers : List TurnAnswer) :
    let session := (start limit messages options supply).run canInvoke answers
    callCount session.history ≤ max limit 1 ∧
      (session.history = [] → session.turn.action = .ask messages options) ∧
      (∀ first, session.history.head? = some first → first.action = .ask messages options) ∧
      (∀ error,
        session.turn.action = .fail error →
        ∃ action, session.history.getLast? = some ⟨action, .failed error⟩) ∧
      ∀ before after,
        session.history = before ++ ⟨.pull, .closed⟩ :: after →
        ∃ (earlier : List TurnExchange) (inquiry : Inquiry),
          before = earlier ++ inquiry.exchanges ∧
            (¬inquiry.GoesOn canInvoke → after = [] ∧ session.turn.action = .finish) ∧
            (inquiry.GoesOn canInvoke →
              ∃ errands,
                errands.map (·.call) = inquiry.pending ∧
                  Follows (errandSteps inquiry.turnId errands)
                    (if callCount earlier + 1 < max limit 1 then inquiry.next errands
                      else .finish)
                    after session.turn.action) := by
  intro session
  have orderly := (orderly_start canInvoke limit messages options supply).run answers
  have opened := opened_run canInvoke limit messages options supply answers
  refine ⟨orderly.callCount_le, opened.unasked, opened.first, orderly.failed, ?_⟩
  intro before after split
  obtain ⟨earlier, inquiry, shape, behind⟩ := orderly.rounds before after split
  exact ⟨earlier, inquiry, shape, behind.leadsTo⟩

end TurnSession

namespace TwoErrands

/-- What the caller asks. -/
def question : List ChatMessage :=
  [{ role := .user, contents := [.text "Hi"], messageId := some "m0" }]

/-- The first function call. -/
def look : FunctionCall :=
  ⟨"c1", "look", none⟩

/-- The second function call. -/
def jump : FunctionCall :=
  ⟨"c2", "jump", none⟩

/-- Both function calls arrive in one update. -/
def update : Update where
  role := .assistant
  contents := [.call look, .call jump]
  messageId := some "m1"
  conversationId := some "thread"

/-- The first call ends behind its update, both functions return, and the next call is silent. -/
def answers : List TurnAnswer :=
  [.done, .update update, .done, .closed,
   .done, .returned (.json (.string "fine")), .done,
   .done, .returned (.json (.bool true)), .done,
   .done, .closed]

/-- The first call. -/
def opened : Inquiry where
  messages := question
  options := { conversationId := some "conv" }
  turnId := some "conv"
  heard := [update]

/-- The functions that are run behind it. -/
def errands : List Errand :=
  [⟨look, .json (.string "fine"), IdSupply.idAt 0 0⟩,
   ⟨jump, .json (.bool true), IdSupply.idAt 0 1⟩]

/-- The next call. -/
def silent : Inquiry where
  messages := question ++ historyFrom [update] ++ errands.map Errand.message
  options := {}
  turnId := some "conv"
  heard := []

end TwoErrands

namespace TurnSession

open TwoErrands

/-- Two functions are run and reported in order, and a silent call behind them ends the turn. -/
theorem pending_run_in_order_two_errands :
    let session :=
      (start 3 question { conversationId := some "conv" } {}).run (fun _ => true) answers
    let after :=
      errandSteps (some "conv") errands ++ silent.exchanges ++ [⟨.pull, .closed⟩]
    session.history = opened.exchanges ++ ⟨.pull, .closed⟩ :: after ∧
      opened.pending = [look, jump] ∧
      (∃ turnId served,
        served.map (·.call) = [look, jump] ∧
          errandSteps turnId served = errandSteps (some "conv") errands ∧
          opened.next served = .ask silent.messages silent.options) ∧
      session.turn.action = .finish := by
  intro session after
  have history : session.history = opened.exchanges ++ ⟨.pull, .closed⟩ :: after := by
    decide +kernel
  have pending : opened.pending = [look, jump] := by
    decide +kernel
  obtain ⟨-, -, -, -, rounds⟩ :=
    pending_run_in_order (fun _ => true) 3 question { conversationId := some "conv" } {} answers
  refine ⟨history, pending, ?_, ?_⟩
  · obtain ⟨earlier, inquiry, split, -, goesOn⟩ := rounds _ _ history
    have first : [] ++ opened.exchanges = earlier ++ inquiry.exchanges := split
    obtain ⟨rfl, messages, options, heard⟩ := Inquiry.told_by_exchanges first
    have calls : inquiry.pending = [look, jump] := by
      rw [Inquiry.pending, ← heard]
      exact pending
    obtain ⟨served, run, follows⟩ := goesOn ⟨by simp [calls], fun _ _ => rfl⟩
    have next :
        (if callCount [] + 1 < max 3 1 then inquiry.next served else .finish) =
          opened.next served := by
      rw [if_pos (by decide), Inquiry.next, Inquiry.next, messages, options, heard]
    rw [next] at follows
    -- The next call was started, so both functions were run before it.
    have quiet := callCount_errandSteps inquiry.turnId served
    obtain ⟨answer, rest, shape⟩ := follows.beyond_of_ask quiet (by decide)
    have asked :
        errandSteps (some "conv") errands ++
            ⟨.ask silent.messages silent.options, .done⟩ :: [⟨.pull, .closed⟩] =
          errandSteps inquiry.turnId served ++ ⟨opened.next served, answer⟩ :: rest :=
      shape
    obtain ⟨steps, same, -⟩ := ask_unique asked rfl rfl quiet
    exact ⟨inquiry.turnId, served, run.trans calls, steps.symm,
      (congrArg TurnExchange.action same).symm⟩
  · -- The next call has nothing pending, so the turn is over.
    have again :
        session.history =
          (opened.exchanges ++ ⟨.pull, .closed⟩ :: errandSteps (some "conv") errands ++
            silent.exchanges) ++ [⟨.pull, .closed⟩] := by
      rw [history]
      simp [after]
    obtain ⟨earlier, inquiry, split, stops, -⟩ := rounds _ _ again
    obtain ⟨-, -, -, heard⟩ := Inquiry.told_by_exchanges split.symm
    refine (stops fun goesOn => goesOn.1 ?_).2
    rw [Inquiry.pending, heard]
    rfl

end TurnSession

end AgentWire.Client

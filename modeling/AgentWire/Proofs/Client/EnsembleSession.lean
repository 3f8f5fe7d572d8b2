import AgentWire.Proofs.Client.CallSession
import AgentWire.Proofs.Client.TurnRounds

namespace AgentWire.Client

/-!
# A turn over its calls

A session of an ensemble is a turn with its open call, the store in memory that all
calls write to, and one history of what the turn and the controllers of its calls have
asked for.  A turn that waits for an update lets its call go on; everything else is
answered by the surroundings.

`EnsembleTransition` lists what one move can do.  The turn takes part in it as a session
of turns, and its open call as a session of calls.
-/

open Chat (ChatMessage FunctionCall Update)
open Resume (Memory)

/-- Something that a turn or its open call asked for, and the answer. -/
inductive EnsembleExchange where
  | turn (exchange : TurnExchange)
  | call (exchange : Exchange)
  deriving Repr, DecidableEq

namespace EnsembleExchange

/-- What the turn asked for. -/
def turn? : EnsembleExchange → Option TurnExchange
  | .turn exchange => some exchange
  | .call _ => none

/-- What the call asked for. -/
def call? : EnsembleExchange → Option Exchange
  | .turn _ => none
  | .call exchange => some exchange

@[simp] theorem turn?_turn (exchange : TurnExchange) : (turn exchange).turn? = some exchange :=
  rfl

@[simp] theorem turn?_call (exchange : Exchange) : (call exchange).turn? = none :=
  rfl

@[simp] theorem call?_turn (exchange : TurnExchange) : (turn exchange).call? = none :=
  rfl

/-- The exchanges of a call are its own. -/
theorem calls_calls (exchanges : List Exchange) :
    (exchanges.map call).filterMap call? = exchanges := by
  rw [List.filterMap_map]
  exact List.filterMap_some

/-- Whether a call is started. -/
def isAsk : EnsembleExchange → Bool
  | .turn exchange => exchange.action.isAsk
  | .call _ => false

/-- The update that the call hands over to the turn. -/
def update? : EnsembleExchange → Option Update
  | .turn ⟨.pull, .update update⟩ => some update
  | _ => none

/-- Exchanges of a call hand no update over to the turn. -/
theorem updates_calls (exchanges : List Exchange) :
    (exchanges.map call).filterMap update? = [] := by
  rw [List.filterMap_map]
  exact List.filterMap_eq_nil_iff.mpr fun _ _ => rfl

/-- The call hands over an update to the turn. -/
def told (update : Update) : EnsembleExchange :=
  .turn ⟨.pull, .update update⟩

@[simp] theorem turn?_told (update : Update) :
    (told update).turn? = some ⟨.pull, .update update⟩ :=
  rfl

/-- Handing over updates is no exchange of the call. -/
theorem calls_tellings (updates : List Update) :
    (updates.map told).filterMap call? = [] := by
  rw [List.filterMap_map]
  exact List.filterMap_eq_nil_iff.mpr fun _ _ => rfl

/-- The updates that are handed over are those that the turn gets. -/
theorem updates_tellings (updates : List Update) :
    (updates.map told).filterMap update? = updates := by
  rw [List.filterMap_map]
  exact List.filterMap_some

end EnsembleExchange

/-- What the surroundings of a turn and its calls do next. -/
inductive EnsembleMove where
  /-- The turn is answered. -/
  | turn (answer : TurnAnswer)
  /-- A move for the open call. -/
  | call (move : Move)
  deriving Repr, DecidableEq

/-- A turn, its open call, the store of the calls, and what was asked for so far. -/
structure EnsembleSession where
  turn : Turn
  call : Option Call := none
  memory : Memory
  history : List EnsembleExchange := []
  deriving Repr, DecidableEq

namespace EnsembleSession

/-- A turn before its first call. -/
def start
    (limit : Nat)
    (messages : List ChatMessage)
    (options : Options)
    (supply : IdSupply)
    (memory : Memory) :
    EnsembleSession where
  turn := .start limit messages options supply
  memory := memory

/-- The turn without its calls. -/
def turns (session : EnsembleSession) : TurnSession where
  turn := session.turn
  history := session.history.filterMap EnsembleExchange.turn?

/-- Go on with the turn. -/
def answer
    (canInvoke : String → Bool)
    (session : EnsembleSession)
    (given : TurnAnswer) :
    EnsembleSession :=
  { session with
    turn := session.turn.advance canInvoke given
    history := session.history ++ [.turn ⟨session.turn.action, given⟩] }

/-- Start the next call of the turn. -/
def ask
    (settings : CallSettings)
    (canInvoke : String → Bool)
    (session : EnsembleSession)
    (messages : List ChatMessage)
    (options : Options) :
    EnsembleSession :=
  let supply := session.turn.supply.branch session.turn.made
  match Call.start settings messages options supply with
  | .ok call => { session.answer canInvoke .done with call := some call }
  | .error error => { session.answer canInvoke (.failed error) with call := none }

/-- One move of the open call, for a turn that waits for its next update. -/
def pull
    (canInvoke : String → Bool)
    (session : EnsembleSession)
    (call : Call)
    (move : Move) :
    EnsembleSession :=
  match call.action with
  | .finish => session.answer canInvoke .closed
  | .fail error => session.answer canInvoke (.failed error)
  | .follow _ | .check | .deliver _ =>
      let after := (CallSession.start call session.memory).step move
      let session :=
        { session with
          call := some after.call
          memory := after.memory
          history := session.history ++ after.history.map .call }
      (after.updates.map TurnAnswer.update).foldl (answer canInvoke) session

/-- One move; one that does not fit what is asked for changes nothing. -/
def step
    (settings : CallSettings)
    (canInvoke : String → Bool)
    (session : EnsembleSession)
    (move : EnsembleMove) :
    EnsembleSession :=
  match session.turn.action, session.call, move with
  | .ask messages options, _, .turn .done => session.ask settings canInvoke messages options
  | .ask _ _, _, _ => session
  | .pull, some call, .call move => session.pull canInvoke call move
  | .pull, _, _ => session
  | action, _, .turn given => if action.fits given then session.answer canInvoke given else session
  | _, _, .call _ => session

/-- Any number of moves, one after the other. -/
def run
    (settings : CallSettings)
    (canInvoke : String → Bool)
    (session : EnsembleSession)
    (moves : List EnsembleMove) :
    EnsembleSession :=
  moves.foldl (step settings canInvoke) session

end EnsembleSession

/-- What one move does to a turn with its calls. -/
inductive EnsembleTransition
    (settings : CallSettings)
    (canInvoke : String → Bool)
    (session : EnsembleSession) :
    EnsembleSession → Prop where
  | asked {call : Call} :
      session.turn.stage = .asking →
      Call.start settings session.turn.history session.turn.options
          (session.turn.supply.branch session.turn.made) = .ok call →
      EnsembleTransition settings canInvoke session
        { session with
          turn := session.turn.goTo .listening
          call := some call
          history :=
            session.history ++ [.turn ⟨.ask session.turn.history session.turn.options, .done⟩] }
  | refused {error : ClientError} :
      session.turn.stage = .asking →
      Call.start settings session.turn.history session.turn.options
          (session.turn.supply.branch session.turn.made) = .error error →
      EnsembleTransition settings canInvoke session
        { session with
          turn := session.turn.goTo (.failed error)
          call := none
          history :=
            session.history ++
              [.turn ⟨.ask session.turn.history session.turn.options, .failed error⟩] }
  | followed {call next : Call} {exchange? : Option Exchange} {memory : Memory} :
      session.turn.stage = .listening →
      session.call = some call →
      CallTransition call session.memory exchange? none next memory →
      EnsembleTransition settings canInvoke session
        { session with
          call := some next
          memory
          history := session.history ++ exchange?.toList.map .call }
  | received {call next : Call} {exchange? : Option Exchange} {update : Update}
      {memory : Memory} :
      session.turn.stage = .listening →
      session.call = some call →
      CallTransition call session.memory exchange? (some update) next memory →
      EnsembleTransition settings canInvoke session
        { session with
          turn := session.turn.receive update
          call := some next
          memory
          history :=
            session.history ++ exchange?.toList.map .call ++ [.told update] }
  | elsewhere {call : Call} {memory : Memory} :
      session.call = some call →
      Memory.load memory call.controller.key = session.memory.load call.controller.key →
      EnsembleTransition settings canInvoke session { session with memory }
  | closed {call : Call} :
      session.turn.stage = .listening →
      session.call = some call →
      call.action = .finish →
      EnsembleTransition settings canInvoke session
        { session with
          turn := session.turn.close canInvoke
          history := session.history ++ [.turn ⟨.pull, .closed⟩] }
  | broken {call : Call} {error : ClientError} :
      session.turn.stage = .listening →
      session.call = some call →
      call.action = .fail error →
      EnsembleTransition settings canInvoke session
        { session with
          turn := session.turn.goTo (.failed error)
          history := session.history ++ [.turn ⟨.pull, .failed error⟩] }
  | turned {exchange : TurnExchange} {next : Turn} :
      TurnTransition canInvoke session.turn exchange next →
      exchange.action.isAsk = false →
      exchange.action ≠ .pull →
      EnsembleTransition settings canInvoke session
        { session with
          turn := next
          history := session.history ++ [.turn exchange] }

namespace EnsembleSession

variable
  {settings : CallSettings}
  {canInvoke : String → Bool}
  {session next : EnsembleSession}

/-- The open call is one that can go on. -/
def Poised (session : EnsembleSession) : Prop :=
  ∀ call, session.call = some call → call.Poised

/-- A turn that asks starts its call, or fails with the reason why it cannot be started. -/
theorem ask_cases (stage : session.turn.stage = .asking) :
    EnsembleTransition settings canInvoke session
      (session.ask settings canInvoke session.turn.history session.turn.options) := by
  cases started :
      Call.start settings session.turn.history session.turn.options
        (session.turn.supply.branch session.turn.made) with
  | ok call =>
      have shape : EnsembleTransition settings canInvoke session _ := .asked stage started
      simpa [ask, started, answer, Turn.action, Turn.advance, stage] using shape
  | error error =>
      have shape : EnsembleTransition settings canInvoke session _ := .refused stage started
      simpa [ask, started, answer, Turn.action, Turn.advance, stage] using shape

/-- What a call does becomes part of the turn, which takes the update that it hands over. -/
theorem pull_eq
    {call : Call}
    (goesOn : call.action ≠ .finish ∧ ∀ error, call.action ≠ .fail error)
    (move : Move) :
    let after := (CallSession.start call session.memory).step move
    session.pull canInvoke call move =
      (after.updates.map TurnAnswer.update).foldl (answer canInvoke)
        { session with
          call := some after.call
          memory := after.memory
          history := session.history ++ after.history.map .call } := by
  unfold pull
  split
  · next finishes => exact absurd finishes goesOn.1
  · next error fails => exact absurd fails (goesOn.2 error)
  all_goals rfl

/-- A turn that waits for an update gets one, or the end of the call, or waits on. -/
theorem pull_cases
    {call : Call}
    (stage : session.turn.stage = .listening)
    (opened : session.call = some call)
    (poised : call.Poised)
    (move : Move) :
    EnsembleTransition settings canInvoke session (session.pull canInvoke call move) := by
  have goesOn :
      (call.action ≠ .finish ∧ ∀ error, call.action ≠ .fail error) →
        EnsembleTransition settings canInvoke session (session.pull canInvoke call move) := by
    intro goesOn
    have startPoised : (CallSession.start call session.memory).call.Poised := poised
    rw [pull_eq goesOn]
    rcases CallSession.step_cases startPoised move with
      ⟨exchange?, update?, next, memory, taken, shape⟩ | ⟨memory, same, shape⟩
    · rw [shape]
      cases update? with
      | none =>
          have shape : EnsembleTransition settings canInvoke session _ :=
            .followed stage opened taken
          simpa [CallSession.start] using shape
      | some update =>
          have shape : EnsembleTransition settings canInvoke session _ :=
            .received stage opened taken
          simpa [CallSession.start, answer, Turn.action, Turn.advance, stage,
            EnsembleExchange.told] using shape
    · rw [shape]
      have shape : EnsembleTransition settings canInvoke session _ := .elsewhere opened same
      simpa [CallSession.start, ← opened] using shape
  cases action : call.action with
  | finish =>
      have shape : EnsembleTransition settings canInvoke session _ := .closed stage opened action
      simpa [pull, action, answer, Turn.action, Turn.advance, stage] using shape
  | fail error =>
      have shape : EnsembleTransition settings canInvoke session _ := .broken stage opened action
      simpa [pull, action, answer, Turn.action, Turn.advance, stage] using shape
  | follow | check | deliver =>
      exact goesOn (by simp [action])

/-- A turn that neither starts a call nor waits for one is answered by the surroundings. -/
theorem step_turn
    (asksNothing : session.turn.action.isAsk = false)
    (waitsForNothing : session.turn.action ≠ .pull)
    {given : TurnAnswer} :
    session.step settings canInvoke (.turn given) =
      if session.turn.action.fits given then session.answer canInvoke given else session := by
  cases asked : session.turn.action with
  | ask | pull =>
      simp [asked, TurnAction.isAsk] at asksNothing waitsForNothing
  | deliver | check | invoke | finish | fail =>
      simp [step, asked]

/-- A turn that neither asks nor waits takes an answer that fits, or stays as it was. -/
theorem turned_cases
    (asksNothing : session.turn.action.isAsk = false)
    (waitsForNothing : session.turn.action ≠ .pull)
    (move : EnsembleMove) :
    EnsembleTransition settings canInvoke session (session.step settings canInvoke move) ∨
      session.step settings canInvoke move = session := by
  cases move with
  | turn given =>
      rw [step_turn asksNothing waitsForNothing]
      split
      · next fits =>
        exact .inl (.turned (TurnSession.transition_of_fits fits) asksNothing waitsForNothing)
      · exact .inr rfl
  | call move =>
      cases asked : session.turn.action with
      | ask | pull =>
          simp [asked, TurnAction.isAsk] at asksNothing waitsForNothing
      | deliver | check | invoke | finish | fail =>
          exact .inr (by simp [step, asked])

/-- A move is a transition, or leaves the session as it was. -/
theorem step_cases (poised : session.Poised) (move : EnsembleMove) :
    EnsembleTransition settings canInvoke session (session.step settings canInvoke move) ∨
      session.step settings canInvoke move = session := by
  cases stage : session.turn.stage with
  | asking =>
      cases move with
      | call move =>
          exact .inr (by simp [step, Turn.action, stage])
      | turn given =>
          cases given with
          | done =>
              have shape : EnsembleTransition settings canInvoke session _ := ask_cases stage
              exact .inl (by simpa [step, Turn.action, stage] using shape)
          | update | closed | returned | failed =>
              exact .inr (by simp [step, Turn.action, stage])
  | listening =>
      cases move with
      | turn given =>
          exact .inr (by simp [step, Turn.action, stage])
      | call move =>
          cases opened : session.call with
          | none =>
              exact .inr (by simp [step, Turn.action, stage, opened])
          | some call =>
              have shape : EnsembleTransition settings canInvoke session _ :=
                pull_cases stage opened (poised call opened) move
              exact .inl (by simpa [step, Turn.action, stage, opened] using shape)
  | delivering | checking | invoking | reporting | finished | failed =>
      exact turned_cases (by simp [Turn.action, stage, TurnAction.isAsk])
        (by simp [Turn.action, stage]) move

/-- A transition leaves the open call as one that can go on. -/
theorem Poised.transition
    (poised : session.Poised)
    (taken : EnsembleTransition settings canInvoke session next) :
    next.Poised := by
  intro call opened
  cases taken with
  | asked stage started =>
      cases opened
      exact (CallSession.fresh_of_start started).1.poised
  | refused =>
      cases opened
  | followed stage before taken | received stage before taken =>
      cases opened
      exact taken.poised
  | elsewhere | closed | broken | turned =>
      exact poised call opened

/-- What every transition keeps, a run keeps. -/
theorem run_keeps
    (Invariant : EnsembleSession → Prop)
    (transition :
      ∀ session next,
        Invariant session →
        EnsembleTransition settings canInvoke session next →
        Invariant next)
    (poised : session.Poised)
    (initial : Invariant session)
    (moves : List EnsembleMove) :
    Invariant (session.run settings canInvoke moves) := by
  induction moves generalizing session with
  | nil =>
      exact initial
  | cons move rest inductionHypothesis =>
      rw [run, List.foldl_cons]
      have stepped :
          EnsembleTransition settings canInvoke session
              (session.step settings canInvoke move) ∨
            session.step settings canInvoke move = session :=
        step_cases poised move
      rcases stepped with taken | same
      · exact inductionHypothesis (poised.transition taken)
          (transition session _ initial taken)
      · rw [same]
        exact inductionHypothesis poised initial

/-- Before the first call there is no call that could be in the way. -/
theorem start_poised
    (limit : Nat)
    (messages : List ChatMessage)
    (options : Options)
    (supply : IdSupply)
    (memory : Memory) :
    (start limit messages options supply memory).Poised := by
  simp [Poised, start]

end EnsembleSession

namespace EnsembleTransition

variable
  {settings : CallSettings}
  {canInvoke : String → Bool}
  {session next : EnsembleSession}

/-- The turn takes part in a transition with one of its own, or stays as it was. -/
theorem turns (taken : EnsembleTransition settings canInvoke session next) :
    next.turns = session.turns ∨
      ∃ exchange turn,
        TurnTransition canInvoke session.turn exchange turn ∧
          next.turns = { turn, history := session.turns.history ++ [exchange] } := by
  simp only [EnsembleSession.turns]
  cases taken with
  | asked stage =>
      exact .inr ⟨_, _, .asked stage, by simp⟩
  | @refused error stage =>
      exact .inr ⟨_, session.turn.goTo (.failed error), .refused stage, by simp⟩
  | closed stage =>
      exact .inr ⟨_, _, .closed stage, by simp⟩
  | @broken _ error stage =>
      exact .inr ⟨_, session.turn.goTo (.failed error), .broken stage, by simp⟩
  | turned taken =>
      exact .inr ⟨_, _, taken, by simp⟩
  | @received _ _ _ update _ stage =>
      exact .inr ⟨_, session.turn.receive update, .received stage, by simp⟩
  | followed stage =>
      exact .inl (by simp)
  | elsewhere =>
      exact .inl rfl

end EnsembleTransition

namespace EnsembleSession

variable
  {settings : CallSettings}
  {canInvoke : String → Bool}
  {session next : EnsembleSession}

/-- What every transition of a turn keeps holds of the turn of an ensemble. -/
theorem turns_keeps
    (Invariant : TurnSession → Prop)
    (transition :
      ∀ session exchange turn,
        Invariant session →
        TurnTransition canInvoke session.turn exchange turn →
        Invariant { turn, history := session.history ++ [exchange] })
    (poised : session.Poised)
    (initial : Invariant session.turns)
    (moves : List EnsembleMove) :
    Invariant (session.run settings canInvoke moves).turns := by
  refine run_keeps (fun session => Invariant session.turns) ?_ poised initial moves
  intro session next before taken
  rcases taken.turns with same | ⟨exchange, turn, turned, shape⟩
  · rw [same]
    exact before
  · rw [shape]
    exact transition session.turns exchange turn before turned

end EnsembleSession

/-! ### The call that is open -/

namespace Transition

variable
  {controller next : Controller}
  {memory after : Memory}
  {exchange : Exchange}

/-- The input of a stream never changes. -/
theorem input_eq (taken : Transition controller memory exchange next after) :
    next.input = controller.input := by
  cases taken <;>
    simp only [Controller.goTo, Controller.begin, Controller.replay, Controller.forget,
      Controller.accept, Controller.receive, Controller.fallBack, Controller.interrupt]
  all_goals repeat' split
  all_goals rfl

/-- A run that is started is the one that the controller is for. -/
theorem input_of_create
    {input : RunInput}
    (taken : Transition controller memory exchange next after)
    (creates : exchange.action = .connect (.create input)) :
    input = controller.input := by
  have requested : controller.request = .create input → input = controller.input := by
    intro requests
    unfold Controller.request at requests
    split at requests
    · cases requests
    · exact (Request.create.inj requests).symm
  cases taken <;>
    simp_all

end Transition

/-- The input of a call never changes. -/
theorem CallTransition.input_eq
    {call next : Call}
    {memory after : Memory}
    {exchange? : Option Exchange}
    {update? : Option Update}
    (taken : CallTransition call memory exchange? update? next after) :
    next.controller.input = call.controller.input := by
  rcases taken.stream with ⟨-, same, -⟩ | ⟨exchange, -, goesOn⟩
  · rw [same]
  · exact goesOn.input_eq

/-- The updates that a call has handed over to its turn. -/
def updatesIn (history : List EnsembleExchange) : List Update :=
  history.filterMap EnsembleExchange.update?

/-- The items of its stream that a call is done with. -/
def deliveriesIn (history : List EnsembleExchange) : List Delivery :=
  (history.filterMap EnsembleExchange.call?).filterMap Exchange.delivery?

/-- A call was started on some messages and options, and no other one behind it. -/
structure Started
    (history : List EnsembleExchange)
    (messages : List ChatMessage)
    (options : Options)
    (earlier during : List EnsembleExchange) :
    Prop where
  split : history = earlier ++ .turn ⟨.ask messages options, .done⟩ :: during
  last : ∀ exchange ∈ during, exchange.isAsk = false

namespace Started

variable
  {history earlier during more : List EnsembleExchange}
  {messages : List ChatMessage}
  {options : Options}

/-- The last call that was started stays the last one as long as nothing is asked. -/
theorem append
    (started : Started history messages options earlier during)
    (asksNothing : ∀ exchange ∈ more, exchange.isAsk = false) :
    Started (history ++ more) messages options earlier (during ++ more) where
  split := by
    rw [started.split, List.append_assoc, List.cons_append]
  last := by
    intro exchange member
    rcases List.mem_append.mp member with before | after
    · exact started.last exchange before
    · exact asksNothing exchange after

/-- A call that was asked for just now is the last one. -/
theorem of_asked (history : List EnsembleExchange) :
    Started (history ++ [.turn ⟨.ask messages options, .done⟩]) messages options history [] where
  split := rfl
  last := by simp

/-- Nothing stands between two starts of a call behind which no other one is started. -/
theorem nothing_between
    {asked : EnsembleExchange}
    {between after : List EnsembleExchange}
    {exchange : EnsembleExchange}
    (split : exchange :: during = between ++ asked :: after)
    (asks : asked.isAsk = true)
    (last : ∀ exchange ∈ during, exchange.isAsk = false) :
    between = [] := by
  cases between with
  | nil =>
      rfl
  | cons first rest =>
      obtain ⟨-, rfl⟩ := List.cons.inj split
      have quiet := last asked (by simp)
      simp [asks] at quiet

/-- There is only one call that was started last. -/
theorem unique
    {otherMessages : List ChatMessage}
    {otherOptions : Options}
    {otherEarlier otherDuring : List EnsembleExchange}
    (started : Started history messages options earlier during)
    (other : Started history otherMessages otherOptions otherEarlier otherDuring) :
    otherMessages = messages ∧
      otherOptions = options ∧
      otherEarlier = earlier ∧
      otherDuring = during := by
  have same := started.split.symm.trans other.split
  rcases List.append_eq_append_iff.mp same with ⟨between, shape, rest⟩ | ⟨between, shape, rest⟩
  · obtain rfl := nothing_between rest rfl started.last
    rw [List.nil_append] at rest
    cases rest
    exact ⟨rfl, rfl, by simpa using shape, rfl⟩
  · obtain rfl := nothing_between rest rfl other.last
    rw [List.nil_append] at rest
    cases rest
    exact ⟨rfl, rfl, by simpa using shape.symm, rfl⟩

end Started

/-- The open call was started last, on what it was asked, and it is attentive since then. -/
def Attending
    (settings : CallSettings)
    (call : Call)
    (history : List EnsembleExchange) :
    Prop :=
  ∃ (messages : List ChatMessage) (options : Options) (earlier during : List EnsembleExchange),
    Started history messages options earlier during ∧
      (∃ supply rest,
        buildRunInput messages options settings.registry supply =
          .ok (call.controller.input, rest)) ∧
      CallSession.Attentive
        { call
          memory := []
          history := during.filterMap EnsembleExchange.call?
          updates := updatesIn during }

namespace Attending

variable
  {settings : CallSettings}
  {call next : Call}
  {memory after : Memory}
  {history : List EnsembleExchange}
  {exchange? : Option Exchange}
  {update? : Option Update}

/-- A call that was started just now is attended to. -/
theorem of_started
    {messages : List ChatMessage}
    {options : Options}
    {supply : IdSupply}
    (started : Call.start settings messages options supply = .ok call)
    (history : List EnsembleExchange) :
    Attending settings call (history ++ [.turn ⟨.ask messages options, .done⟩]) := by
  obtain ⟨fresh, -, rest, built⟩ := CallSession.fresh_of_start started
  exact ⟨messages, options, history, [], .of_asked history, ⟨supply, rest, built⟩,
    CallSession.attentive_run fresh [] []⟩

/-- The call goes on, and the turn takes the update that it hands over. -/
theorem transition
    (attending : Attending settings call history)
    (taken : CallTransition call memory exchange? update? next after) :
    Attending settings next
      (history ++ exchange?.toList.map .call ++
        update?.toList.map .told) := by
  obtain ⟨messages, options, earlier, during, started, ⟨supply, rest, built⟩, attentive⟩ :=
    attending
  refine ⟨messages, options, earlier, _, (started.append ?_).append ?_, ⟨supply, rest, ?_⟩, ?_⟩
  · simp [EnsembleExchange.isAsk]
  · simp [EnsembleExchange.told, EnsembleExchange.isAsk, TurnAction.isAsk]
  · rw [taken.input_eq]
    exact built
  · have before :
        CallSession.Attentive
          { call
            memory
            history := during.filterMap EnsembleExchange.call?
            updates := updatesIn during } :=
      attentive
    have exchanges :
        (during ++ exchange?.toList.map EnsembleExchange.call ++
            update?.toList.map EnsembleExchange.told).filterMap EnsembleExchange.call? =
          during.filterMap EnsembleExchange.call? ++ exchange?.toList := by
      rw [List.filterMap_append, List.filterMap_append, EnsembleExchange.calls_calls,
        EnsembleExchange.calls_tellings, List.append_nil]
    have updates :
        updatesIn
            (during ++ exchange?.toList.map EnsembleExchange.call ++
              update?.toList.map .told) =
          updatesIn during ++ update?.toList := by
      rw [updatesIn, List.filterMap_append, List.filterMap_append,
        EnsembleExchange.updates_calls, EnsembleExchange.updates_tellings, List.append_nil,
        updatesIn]
    rw [exchanges, updates]
    have behind := before.transition taken
    exact behind

/-- The turn goes on without the call. -/
theorem aside
    {exchange : TurnExchange}
    (attending : Attending settings call history)
    (asksNothing : exchange.action.isAsk = false)
    (waitsForNothing : exchange.action ≠ .pull) :
    Attending settings call (history ++ [.turn exchange]) := by
  obtain ⟨messages, options, earlier, during, started, built, attentive⟩ := attending
  refine ⟨messages, options, earlier, during ++ [.turn exchange], started.append ?_, built, ?_⟩
  · simpa [EnsembleExchange.isAsk] using asksNothing
  · have silent : EnsembleExchange.update? (.turn exchange) = none := by
      obtain ⟨action, answer⟩ := exchange
      cases action <;>
        simp_all [EnsembleExchange.update?]
    simpa [updatesIn, List.filterMap_cons, silent] using attentive

end Attending

/-- Whether a turn listens to a call, or hands over what it has heard. -/
def Turn.Attends (turn : Turn) : Prop :=
  turn.stage = .listening ∨ ∃ update, turn.stage = .delivering update

/-- A turn that runs functions does not listen to a call. -/
theorem Turn.not_attends_runNext (turn : Turn) (calls : List FunctionCall) :
    ¬(turn.runNext calls).Attends := by
  cases calls with
  | cons call rest =>
      rintro (attends | ⟨update, attends⟩) <;>
        cases attends
  | nil =>
      simp only [Turn.runNext, Turn.again]
      split <;>
        rintro (attends | ⟨update, attends⟩) <;>
          cases attends

/-- A turn does not listen to a call that has ended. -/
theorem Turn.not_attends_close (turn : Turn) (canInvoke : String → Bool) :
    ¬(turn.close canInvoke).Attends := by
  simp only [Turn.close]
  split
  · rintro (attends | ⟨update, attends⟩) <;>
      cases attends
  · exact Turn.not_attends_runNext _ _

/-- A turn that goes on without its call attends only if it did before. -/
theorem TurnTransition.attends
    {canInvoke : String → Bool}
    {turn next : Turn}
    {exchange : TurnExchange}
    (taken : TurnTransition canInvoke turn exchange next)
    (asksNothing : exchange.action.isAsk = false)
    (waitsForNothing : exchange.action ≠ .pull)
    (attends : next.Attends) :
    turn.Attends := by
  cases taken with
  | delivered stage =>
      exact .inr ⟨_, stage⟩
  | reported =>
      exact absurd attends (Turn.not_attends_runNext _ _)
  | asked | refused =>
      cases asksNothing
  | received | closed | broken =>
      exact absurd rfl waitsForNothing
  | checked | returned | cancelled | failed =>
      rcases attends with attends | ⟨update, attends⟩ <;>
        cases attends

/-- A call that has ended told all that its items tell. -/
def Ended (history : List EnsembleExchange) : Prop :=
  ∀ before after messages options earlier during,
    history = before ++ .turn ⟨.pull, .closed⟩ :: after →
    Started before messages options earlier during →
    ∃ machine told,
      Inbound.listen (deliveriesIn during) = .ok (machine, told) ∧
        Alike (updatesIn during) told

/-- The request that starts a run is built from what the call was asked. -/
def Built (settings : CallSettings) (history : List EnsembleExchange) : Prop :=
  ∀ before after input answer,
    history = before ++ .call ⟨.connect (.create input), answer⟩ :: after →
    ∃ messages options earlier during supply rest,
      Started before messages options earlier during ∧
        buildRunInput messages options settings.registry supply = .ok (input, rest)

/-- What holds of a turn and its calls. -/
structure EnsembleSession.Tended (settings : CallSettings) (session : EnsembleSession) : Prop where
  attending :
    session.turn.Attends →
    ∃ call, session.call = some call ∧ Attending settings call session.history
  ended : Ended session.history
  built : Built settings session.history

section Tended

variable
  {settings : CallSettings}
  {history : List EnsembleExchange}

/-- Nothing changes for calls that have ended before, unless one ends now. -/
theorem Ended.concat
    {exchange : EnsembleExchange}
    (ended : Ended history)
    (goesOn : exchange ≠ .turn ⟨.pull, .closed⟩) :
    Ended (history ++ [exchange]) := by
  intro before after messages options earlier during split started
  rcases split_concat split with ⟨rfl, -⟩ | ⟨rest, -, shape⟩
  · exact absurd rfl goesOn
  · exact ended before rest messages options earlier during shape started

/-- Exchanges of a call end no call. -/
theorem Ended.calls
    (ended : Ended history)
    (exchange? : Option Exchange) :
    Ended (history ++ exchange?.toList.map .call) := by
  cases exchange? with
  | none => simpa using ended
  | some exchange => exact ended.concat nofun

/-- Nothing that a turn asks for sends a request. -/
theorem Built.concat
    (built : Built settings history)
    (exchange : TurnExchange) :
    Built settings (history ++ [.turn exchange]) := by
  intro before after input answer split
  rcases split_concat split with ⟨other, -⟩ | ⟨rest, -, shape⟩
  · cases other
  · exact built before rest input answer shape

/-- The open call makes a request that was built from what it was asked. -/
theorem Built.calls
    {call next : Call}
    {memory after : Memory}
    {exchange? : Option Exchange}
    {update? : Option Update}
    (built : Built settings history)
    (attending : Attending settings call history)
    (taken : CallTransition call memory exchange? update? next after) :
    Built settings (history ++ exchange?.toList.map .call) := by
  rcases taken.stream with ⟨rfl, -⟩ | ⟨exchange, rfl, goesOn⟩
  · simpa using built
  · intro before behind input answer split
    rcases split_concat split with ⟨same, rfl, -⟩ | ⟨rest, -, shape⟩
    · cases same
      obtain ⟨messages, options, earlier, during, started, ⟨supply, rest, made⟩, -⟩ := attending
      obtain rfl := goesOn.input_of_create rfl
      exact ⟨messages, options, earlier, during, supply, rest, started, made⟩
    · exact built before rest input answer shape

/-- A call that finishes has told all that its items tell. -/
theorem Ended.close
    {call : Call}
    (ended : Ended history)
    (attending : Attending settings call history)
    (finishes : call.action = .finish) :
    Ended (history ++ [.turn ⟨.pull, .closed⟩]) := by
  intro before after messages options earlier during split started
  rcases split_concat split with ⟨-, rfl, -⟩ | ⟨rest, -, shape⟩
  · obtain ⟨asked, given, first, heard, opened, -, attentive⟩ := attending
    obtain ⟨-, -, -, rfl⟩ := started.unique opened
    have following : call.stage = .following := by
      cases stage : call.stage <;> simp_all [Call.action]
    rw [CallSession.Attentive, following] at attentive
    obtain ⟨told, listened, alike⟩ := attentive
    exact ⟨_, told, listened, alike⟩
  · exact ended before rest messages options earlier during shape started

end Tended

namespace EnsembleSession

variable
  {settings : CallSettings}
  {canInvoke : String → Bool}
  {session next : EnsembleSession}

/-- A transition keeps what holds of a turn and its calls. -/
theorem Tended.transition
    (tended : session.Tended settings)
    (taken : EnsembleTransition settings canInvoke session next) :
    next.Tended settings := by
  -- The call that is listened to, the ends of calls and the requests are kept apart.
  have attendingOf := tended.attending
  cases taken with
  | asked stage started =>
      refine ⟨fun _ => ⟨_, rfl, .of_started started _⟩, ?_, ?_⟩
      · exact tended.ended.concat nofun
      · exact tended.built.concat _
  | refused stage =>
      refine ⟨fun attends => ?_, ?_, ?_⟩
      · rcases attends with attends | ⟨update, attends⟩ <;>
          cases attends
      · exact tended.ended.concat nofun
      · exact tended.built.concat _
  | followed stage opened taken =>
      obtain ⟨call, same, attending⟩ := attendingOf (.inl stage)
      cases opened.symm.trans same
      refine ⟨fun _ => ⟨_, rfl, ?_⟩, ?_, ?_⟩
      · simpa using attending.transition taken
      · exact tended.ended.calls _
      · exact tended.built.calls attending taken
  | received stage opened taken =>
      obtain ⟨call, same, attending⟩ := attendingOf (.inl stage)
      cases opened.symm.trans same
      refine ⟨fun _ => ⟨_, rfl, ?_⟩, ?_, ?_⟩
      · simpa using attending.transition taken
      · exact (tended.ended.calls _).concat nofun
      · exact (tended.built.calls attending taken).concat _
  | elsewhere opened =>
      exact ⟨attendingOf, tended.ended, tended.built⟩
  | closed stage opened finishes =>
      obtain ⟨call, same, attending⟩ := attendingOf (.inl stage)
      cases opened.symm.trans same
      refine ⟨fun attends => ?_, ?_, ?_⟩
      · exact absurd attends (Turn.not_attends_close _ _)
      · exact tended.ended.close attending finishes
      · exact tended.built.concat _
  | broken stage opened fails =>
      refine ⟨fun attends => ?_, ?_, ?_⟩
      · rcases attends with attends | ⟨update, attends⟩ <;>
          cases attends
      · exact tended.ended.concat nofun
      · exact tended.built.concat _
  | turned taken asksNothing waitsForNothing =>
      refine ⟨fun attends => ?_, ?_, ?_⟩
      · obtain ⟨call, opened, attending⟩ :=
          attendingOf (taken.attends asksNothing waitsForNothing attends)
        exact ⟨call, opened, attending.aside asksNothing waitsForNothing⟩
      · refine tended.ended.concat fun same => ?_
        cases same
        exact waitsForNothing rfl
      · exact tended.built.concat _

/-- Whatever happens to a turn and its calls, it is tended to. -/
theorem tended_run
    (settings : CallSettings)
    (canInvoke : String → Bool)
    (limit : Nat)
    (messages : List ChatMessage)
    (options : Options)
    (supply : IdSupply)
    (memory : Memory)
    (moves : List EnsembleMove) :
    ((start limit messages options supply memory).run settings canInvoke moves).Tended
      settings := by
  refine run_keeps (fun session => session.Tended settings)
    (fun _ _ tended taken => tended.transition taken)
    (start_poised limit messages options supply memory) ⟨?_, ?_, ?_⟩ moves
  · rintro (attends | ⟨update, attends⟩) <;>
      cases attends
  · intro before after messages options earlier during split
    simp [start] at split
  · intro before after input answer split
    simp [start] at split

end EnsembleSession

/-! ### Requests -/

/-- A call with a number in its turn requests a run. -/
def Requested (history : List EnsembleExchange) (number : Nat) (input : RunInput) : Prop :=
  ∃ before answer after,
    history = before ++ .call ⟨.connect (.create input), answer⟩ :: after ∧
      callCount (before.filterMap EnsembleExchange.turn?) = number

/-- Where nothing is asked, no call is started. -/
theorem callCount_quiet
    {during : List EnsembleExchange}
    (quiet : ∀ exchange ∈ during, exchange.isAsk = false) :
    callCount (during.filterMap EnsembleExchange.turn?) = 0 := by
  rw [callCount, List.countP_eq_zero]
  intro asked member
  obtain ⟨exchange, among, same⟩ := List.mem_filterMap.mp member
  cases exchange with
  | call exchange =>
      cases same
  | turn exchange =>
      cases same
      have silent := quiet _ among
      rw [EnsembleExchange.isAsk] at silent
      simp [silent]

/-- The turn starts a call, as one of its own exchanges. -/
theorem Started.turns
    {history earlier during : List EnsembleExchange}
    {messages : List ChatMessage}
    {options : Options}
    (started : Started history messages options earlier during) :
    history.filterMap EnsembleExchange.turn? =
        earlier.filterMap EnsembleExchange.turn? ++
          ⟨.ask messages options, .done⟩ :: during.filterMap EnsembleExchange.turn? ∧
      callCount (history.filterMap EnsembleExchange.turn?) =
        callCount (earlier.filterMap EnsembleExchange.turn?) + 1 := by
  have split :
      history.filterMap EnsembleExchange.turn? =
        earlier.filterMap EnsembleExchange.turn? ++
          ⟨.ask messages options, .done⟩ :: during.filterMap EnsembleExchange.turn? := by
    rw [started.split, List.filterMap_append,
      List.filterMap_cons_some (EnsembleExchange.turn?_turn _)]
  refine ⟨split, ?_⟩
  rw [split, callCount_append, ← List.singleton_append, callCount_append,
    callCount_quiet started.last]
  rfl

namespace EnsembleSession

/-- The call that requests a run was asked what the request is built from. -/
theorem Tended.asked_of_requested
    {settings : CallSettings}
    {session : EnsembleSession}
    {number : Nat}
    {input : RunInput}
    (tended : session.Tended settings)
    (requested : Requested session.history number input) :
    ∃ asked given earlier later supply last,
      session.turns.history = earlier ++ ⟨.ask asked given, .done⟩ :: later ∧
        callCount earlier + 1 = number ∧
        buildRunInput asked given settings.registry supply = .ok (input, last) := by
  obtain ⟨before, answer, after, split, rfl⟩ := requested
  obtain ⟨asked, given, earlier, during, supply, last, started, built⟩ :=
    tended.built before after input answer split
  obtain ⟨turns, counted⟩ := started.turns
  have history :
      session.turns.history =
        earlier.filterMap EnsembleExchange.turn? ++
          ⟨.ask asked given, .done⟩ ::
            (during.filterMap EnsembleExchange.turn? ++ after.filterMap EnsembleExchange.turn?) := by
    rw [EnsembleSession.turns, split, List.filterMap_append, turns, List.append_assoc,
      List.cons_append, List.filterMap_cons_none (EnsembleExchange.turn?_call _)]
  exact ⟨asked, given, _, _, supply, last, history, counted.symm, built⟩

end EnsembleSession

end AgentWire.Client

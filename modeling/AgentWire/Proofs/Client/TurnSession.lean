import AgentWire.Client.Turn

namespace AgentWire.Client

/-!
# A turn at work

A session is a turn with all that it has asked for so far.  What a call hands over,
whether the turn is cancelled before a function is run, and what the function
returns are answers of the surroundings, and every list of answers is one behaviour
of them.  An answer that does not fit what is asked for changes nothing.

`TurnTransition` lists what one answer can do; invariants of turns are proved from it.
-/

open Chat (ChatMessage FunctionCall Payload Update)

/-- What stands at a place of a list with a new end stands at the end or in the list. -/
theorem split_concat
    {α : Type}
    {items before after : List α}
    {item last : α}
    (split : items ++ [last] = before ++ item :: after) :
    (item = last ∧ before = items ∧ after = []) ∨
      ∃ rest, after = rest ++ [last] ∧ items = before ++ item :: rest := by
  rcases List.eq_nil_or_concat after with rfl | ⟨rest, final, rfl⟩
  · obtain ⟨rfl, same⟩ := List.append_inj' split rfl
    cases same
    exact .inl ⟨rfl, rfl, rfl⟩
  · rw [List.concat_eq_append, ← List.cons_append, ← List.append_assoc] at split
    obtain ⟨shape, same⟩ := List.append_inj' split rfl
    cases same
    exact .inr ⟨rest, List.concat_eq_append, shape⟩

/-- Something that a turn asked for, and the answer. -/
structure TurnExchange where
  action : TurnAction
  answer : TurnAnswer
  deriving Repr, DecidableEq

namespace TurnAction

/-- Whether an answer fits what is asked for.  The consumer takes what is delivered. -/
def fits : TurnAction → TurnAnswer → Bool
  | .ask _ _, .done | .ask _ _, .failed _ => true
  | .pull, .update _ | .pull, .closed | .pull, .failed _ => true
  | .deliver _, .done => true
  | .check, .done | .check, .failed _ => true
  | .invoke _, .returned _ | .invoke _, .failed _ => true
  | _, _ => false

/-- Whether a call is started. -/
def isAsk : TurnAction → Bool
  | .ask _ _ => true
  | _ => false

end TurnAction

/-- A turn and what it asked for so far. -/
structure TurnSession where
  turn : Turn
  history : List TurnExchange := []
  deriving Repr, DecidableEq

namespace TurnSession

/-- A turn before its first call. -/
def start
    (limit : Nat)
    (messages : List ChatMessage)
    (options : Options)
    (supply : IdSupply) :
    TurnSession where
  turn := .start limit messages options supply

/-- One answer. -/
def step (canInvoke : String → Bool) (session : TurnSession) (answer : TurnAnswer) :
    TurnSession :=
  if session.turn.action.fits answer then
    { turn := session.turn.advance canInvoke answer
      history := session.history ++ [⟨session.turn.action, answer⟩] }
  else
    session

/-- Any number of answers, one after the other. -/
def run (canInvoke : String → Bool) (session : TurnSession) (answers : List TurnAnswer) :
    TurnSession :=
  answers.foldl (step canInvoke) session

end TurnSession

/-- What one answer does to a turn: the exchange, and the turn after it. -/
inductive TurnTransition (canInvoke : String → Bool) (turn : Turn) :
    TurnExchange → Turn → Prop where
  | asked :
      turn.stage = .asking →
      TurnTransition canInvoke turn
        ⟨.ask turn.history turn.options, .done⟩ (turn.goTo .listening)
  | received {update : Update} :
      turn.stage = .listening →
      TurnTransition canInvoke turn ⟨.pull, .update update⟩ (turn.receive update)
  | closed :
      turn.stage = .listening →
      TurnTransition canInvoke turn ⟨.pull, .closed⟩ (turn.close canInvoke)
  | delivered {update : Update} :
      turn.stage = .delivering update →
      TurnTransition canInvoke turn ⟨.deliver update, .done⟩ (turn.goTo .listening)
  | checked {call : FunctionCall} {rest : List FunctionCall} :
      turn.stage = .checking call rest →
      TurnTransition canInvoke turn ⟨.check, .done⟩ (turn.goTo (.invoking call rest))
  | returned {call : FunctionCall} {rest : List FunctionCall} {value : Payload} :
      turn.stage = .invoking call rest →
      TurnTransition canInvoke turn
        ⟨.invoke call, .returned value⟩ (turn.report call value rest)
  | reported {update : Update} {rest : List FunctionCall} :
      turn.stage = .reporting update rest →
      TurnTransition canInvoke turn ⟨.deliver update, .done⟩ (turn.runNext rest)
  | refused {error : ClientError} :
      turn.stage = .asking →
      TurnTransition canInvoke turn
        ⟨.ask turn.history turn.options, .failed error⟩ (turn.goTo (.failed error))
  | broken {error : ClientError} :
      turn.stage = .listening →
      TurnTransition canInvoke turn ⟨.pull, .failed error⟩ (turn.goTo (.failed error))
  | cancelled {call : FunctionCall} {rest : List FunctionCall} {error : ClientError} :
      turn.stage = .checking call rest →
      TurnTransition canInvoke turn ⟨.check, .failed error⟩ (turn.goTo (.failed error))
  | failed {call : FunctionCall} {rest : List FunctionCall} {error : ClientError} :
      turn.stage = .invoking call rest →
      TurnTransition canInvoke turn ⟨.invoke call, .failed error⟩ (turn.goTo (.failed error))

/-- The exchange of a transition is about what the turn asks for. -/
theorem TurnTransition.action_eq
    {canInvoke : String → Bool}
    {turn next : Turn}
    {exchange : TurnExchange}
    (taken : TurnTransition canInvoke turn exchange next) :
    exchange.action = turn.action := by
  cases taken <;>
    simp_all only [Turn.action]

namespace TurnSession

variable {canInvoke : String → Bool}

/-- An answer that fits what the turn asks for takes it through one of its transitions. -/
theorem transition_of_fits
    {turn : Turn}
    {answer : TurnAnswer}
    (fits : turn.action.fits answer = true) :
    TurnTransition canInvoke turn ⟨turn.action, answer⟩ (turn.advance canInvoke answer) := by
  cases stage : turn.stage <;>
    cases answer <;>
      simp only [Turn.action, stage, TurnAction.fits, Bool.false_eq_true] at fits <;>
        simp only [Turn.action, Turn.advance, stage]
  case asking.done =>
    exact .asked stage
  case asking.failed error =>
    exact .refused stage
  case listening.update update =>
    exact .received stage
  case listening.closed =>
    exact .closed stage
  case listening.failed error =>
    exact .broken stage
  case delivering.done update =>
    exact .delivered stage
  case checking.done call rest =>
    exact .checked stage
  case checking.failed call rest error =>
    exact .cancelled stage
  case invoking.returned call rest value =>
    exact .returned stage
  case invoking.failed call rest error =>
    exact .failed stage
  case reporting.done update rest =>
    exact .reported stage

/-- An answer is a transition, or leaves the session as it was. -/
theorem step_cases
    (canInvoke : String → Bool)
    (session : TurnSession)
    (answer : TurnAnswer) :
    (∃ exchange turn,
      TurnTransition canInvoke session.turn exchange turn ∧
        session.step canInvoke answer =
          { turn, history := session.history ++ [exchange] }) ∨
      session.step canInvoke answer = session := by
  unfold step
  split
  · next fits =>
    exact .inl ⟨_, _, transition_of_fits fits, rfl⟩
  · exact .inr rfl

/-- What every transition keeps, a run keeps. -/
theorem run_keeps
    (Invariant : TurnSession → Prop)
    (transition :
      ∀ session exchange turn,
        Invariant session →
        TurnTransition canInvoke session.turn exchange turn →
        Invariant { turn, history := session.history ++ [exchange] })
    {session : TurnSession}
    (initial : Invariant session)
    (answers : List TurnAnswer) :
    Invariant (session.run canInvoke answers) := by
  induction answers generalizing session with
  | nil =>
      exact initial
  | cons answer rest inductionHypothesis =>
      apply inductionHypothesis
      rcases session.step_cases canInvoke answer with
        ⟨exchange, turn, taken, shape⟩ | same
      · rw [shape]
        exact transition session exchange turn initial taken
      · rw [same]
        exact initial

end TurnSession

end AgentWire.Client

import AgentWire.Proofs.Client.CallSession
import AgentWire.Proofs.Client.StreamSafety
import Mathlib.Data.List.DropRight

namespace AgentWire.Client

/-!
# How often a stream tries again

What a stream has asked for since it handed over the last new event (`sinceNews`) tells
how many failures there were and how many connections were opened.  The next failure is
answered by the wait that its number asks for, or is the last one.  A run that the server
does not know any more is forgotten without being counted: this happens at most once before
the next new event, since a forgotten run is started and not resumed.
-/

open Resume (Memory Progress)

namespace Exchange

/-- Whether an event was handed over. -/
def deliversEvent (exchange : Exchange) : Bool :=
  match exchange.action with
  | .deliver (.event _) => true
  | _ => false

/--
The error of a failure that may be tried again: a connection could not be opened, broke or
ended early.
-/
def failure? (exchange : Exchange) : Option ClientError :=
  match exchange.action, exchange.answer with
  | .connect _, .failed error | .read, .failed error =>
      if error.isRetryable then some error else none
  | .read, .closed => some Controller.endedEarly
  | _, _ => none

end Exchange

/--
What was asked for since the last new event was handed over.  Before anything is asked of
the surroundings, only events that were stored are handed over: these are not new.
-/
def sinceNews (history : List Exchange) : List Exchange :=
  (history.dropWhile (!·.action.isOutside)).rtakeWhile (!·.deliversEvent)

/-- How many failures there were since the last new event. -/
def failuresIn (history : List Exchange) : Nat :=
  (sinceNews history).countP (·.failure?.isSome)

/-- How many connections were asked for since the last new event. -/
def connectionsIn (history : List Exchange) : Nat :=
  (sinceNews history).countP (·.request?.isSome)

section SinceNews

variable
  {history : List Exchange}
  {exchange : Exchange}

/-- Behind a new event everything is counted anew. -/
theorem sinceNews_delivered
    (history : List Exchange)
    (delivers : exchange.deliversEvent = true) :
    sinceNews (history ++ [exchange]) = [] := by
  have inside : exchange.action.isOutside = false := by
    obtain ⟨action, answer⟩ := exchange
    cases action <;> simp_all [Exchange.deliversEvent, Action.isOutside]
  rw [sinceNews, List.dropWhile_append]
  split
  · simp [inside]
  · rw [List.rtakeWhile_concat_neg]
    simp [delivers]

/-- Exchanges of some kind that the surroundings take part in are counted one by one. -/
theorem countP_sinceNews
    {counts : Exchange → Bool}
    (outside : ∀ exchange, counts exchange = true → exchange.action.isOutside = true)
    (history : List Exchange)
    (silent : exchange.deliversEvent = false) :
    (sinceNews (history ++ [exchange])).countP counts =
      (sinceNews history).countP counts + [exchange].countP counts := by
  rw [sinceNews, List.dropWhile_append]
  split
  · next nothing =>
    have before : sinceNews history = [] := by
      simp [sinceNews, List.isEmpty_iff.mp nothing]
    rw [before]
    cases counted : counts exchange with
    | true => simp [outside exchange counted, silent, List.rtakeWhile, counted]
    | false =>
      cases asks : exchange.action.isOutside <;>
        simp [asks, silent, List.rtakeWhile, counted]
  · rw [List.rtakeWhile_concat_pos _ _ _ (by simp [silent]), List.countP_append, ← sinceNews]

/-- An exchange that delivers nothing counts if it is a failure. -/
theorem failuresIn_concat
    (history : List Exchange)
    (silent : exchange.deliversEvent = false) :
    failuresIn (history ++ [exchange]) =
      failuresIn history + if exchange.failure?.isSome then 1 else 0 := by
  rw [failuresIn, failuresIn, countP_sinceNews _ history silent, List.countP_singleton]
  rintro ⟨action, answer⟩ counted
  cases action <;> simp_all [Exchange.failure?, Action.isOutside]

/-- An exchange that neither delivers nor fails does not count. -/
theorem failuresIn_quiet
    (history : List Exchange)
    (exchange : Exchange)
    (silent : exchange.deliversEvent = false)
    (quiet : exchange.failure? = none) :
    failuresIn (history ++ [exchange]) = failuresIn history := by
  rw [failuresIn_concat history silent, quiet]
  rfl

/-- An exchange that delivers nothing counts if it opens a connection. -/
theorem connectionsIn_concat
    (history : List Exchange)
    (silent : exchange.deliversEvent = false) :
    connectionsIn (history ++ [exchange]) =
      connectionsIn history + if exchange.request?.isSome then 1 else 0 := by
  rw [connectionsIn, connectionsIn, countP_sinceNews _ history silent, List.countP_singleton]
  rintro ⟨action, answer⟩ counted
  cases action <;> simp_all [Exchange.request?, Action.isOutside]

end SinceNews

/-! ### What is used up at each stage -/

namespace Controller

/-- One connection more for a run that may have been forgotten: what is resumed was not. -/
def spare (controller : Controller) : Nat :=
  if controller.progress.responseId.isNone then 1 else 0

/-- How many failures and connections since the last new event a stage allows. -/
def Within (controller : Controller) (failures connections : Nat) : Prop :=
  let most := controller.policy.maxAttempts.toNat
  match controller.stage with
  | .loading | .replaying _ _ =>
      controller.failures.toNat = failures ∧ failures = 0 ∧ connections = 0
  | .connecting | .waiting _ =>
      controller.failures.toNat = failures ∧ failures ≤ most ∧
        connections ≤ failures + controller.spare
  | .forgetting | .forgotten =>
      controller.failures.toNat = failures ∧ failures ≤ most ∧ connections ≤ failures + 1
  | .reading =>
      controller.failures.toNat = failures ∧ failures ≤ most ∧
        connections ≤ failures + controller.spare + 1
  | .saving _ | .appending _ | .settling _ | .delivering _ =>
      controller.failures = 0 ∧ connections ≤ most + 2
  | .restarting _ | .restarted _ _ | .closing | .finished | .failed _ =>
      connections ≤ most + 2

variable
  {controller : Controller}
  {failures connections : Nat}

theorem spare_le_one (controller : Controller) : controller.spare ≤ 1 := by
  unfold spare
  split <;> omega

/-- A run that is resumed is known, so no connection is spare. -/
theorem spare_of_resume
    {responseId : String}
    {lastNumber : UInt64}
    (requested : controller.request = .resume responseId lastNumber) :
    controller.spare = 0 := by
  unfold request at requested
  split at requested
  · next known => simp [spare, known]
  · cases requested

/-- The failure with the next number, if there is one. -/
theorem toNat_next_failure
    (bounded : controller.policy.maxAttempts.toNat + 1 < UInt32.size)
    (counted : controller.failures.toNat ≤ controller.policy.maxAttempts.toNat) :
    (controller.failures + 1).toNat = controller.failures.toNat + 1 := by
  rw [UInt32.toNat_add, UInt32.toNat_one, Nat.mod_eq_of_lt]
  exact Nat.lt_of_le_of_lt (Nat.succ_le_succ counted) bounded

/-- An interruption counts as one failure, and ends the stream if it is one too many. -/
theorem Within.interrupt
    (bounded : controller.policy.maxAttempts.toNat + 1 < UInt32.size)
    (counted : controller.failures.toNat = failures)
    (allowed : failures ≤ controller.policy.maxAttempts.toNat)
    (opened : connections ≤ failures + controller.spare + 1)
    (error : ClientError) :
    (controller.interrupt error).Within (failures + 1) connections := by
  have next := toNat_next_failure bounded (counted ▸ allowed)
  have spare := controller.spare_le_one
  rw [counted] at next
  simp only [Controller.interrupt, RetryPolicy.allows]
  by_cases more : controller.failures + 1 ≤ controller.policy.maxAttempts
  · have few : failures + 1 ≤ controller.policy.maxAttempts.toNat := by
      rw [← next]
      exact UInt32.le_iff_toNat_le.mp more
    simp only [more, decide_true, if_true, Within, Controller.spare] at opened ⊢
    exact ⟨next, few, by omega⟩
  · simp only [more, decide_false, Bool.false_eq_true, if_false, Within]
    omega

/-- An error counts as a failure if it may be retried. -/
theorem Within.fallBack
    (bounded : controller.policy.maxAttempts.toNat + 1 < UInt32.size)
    (counted : controller.failures.toNat = failures)
    (allowed : failures ≤ controller.policy.maxAttempts.toNat)
    (opened : connections ≤ failures + controller.spare + 1)
    (error : ClientError) :
    (controller.fallBack error).Within
      (failures + if error.isRetryable then 1 else 0) connections := by
  unfold Controller.fallBack
  split
  · exact Within.interrupt bounded counted allowed opened error
  · have spare := controller.spare_le_one
    simp only [Within, goTo]
    omega

/-- Nothing is counted before the first request. -/
theorem Within.begin
    (counted : controller.failures = 0)
    (stored : Option Progress) :
    (controller.begin stored).Within 0 0 := by
  cases events : (stored.getD {}).events <;>
    simp [Controller.begin, Controller.replay, events, goTo, Within, counted]

/-- Nothing is counted during a replay. -/
theorem Within.replay
    (counted : controller.failures = 0)
    (rest : List Event) :
    (controller.replay rest).Within 0 0 := by
  cases rest <;>
    simp [Controller.replay, goTo, Within, counted]

/-- An event that is accepted is a new one: failures are counted anew. -/
theorem Within.accept
    (opened : connections ≤ controller.policy.maxAttempts.toNat + 2)
    (event : Event)
    (failures : Nat) :
    (controller.accept event).Within failures connections := by
  rcases controller.accept_stage event with stage | stage | stage
  all_goals
    rw [Within, stage]
    exact ⟨rfl, opened⟩

/-- A forgotten run is started next. -/
theorem Within.forget
    (counted : controller.failures.toNat = failures)
    (allowed : failures ≤ controller.policy.maxAttempts.toNat)
    (opened : connections ≤ failures + 1) :
    controller.forget.Within failures connections :=
  ⟨counted, allowed, opened⟩

/-- An event that arrives is within what is allowed, be it new or not. -/
theorem Within.receive
    (stage : controller.stage = .reading)
    (within : controller.Within failures connections)
    (event : Event) :
    (controller.receive event).Within failures connections := by
  have spare := controller.spare_le_one
  have standing := within
  rw [Within, stage] at standing
  obtain ⟨counted, allowed, opened⟩ := standing
  have room : connections ≤ controller.policy.maxAttempts.toNat + 2 := by omega
  unfold Controller.receive
  split
  · exact within
  · exact room
  · exact Within.accept room event failures

end Controller

/-- The policy of a stream never changes. -/
theorem Transition.policy_eq
    {controller next : Controller}
    {memory after : Memory}
    {exchange : Exchange}
    (taken : Transition controller memory exchange next after) :
    next.policy = controller.policy := by
  cases taken <;>
    simp only [Controller.goTo, Controller.begin, Controller.replay, Controller.forget,
      Controller.accept, Controller.receive, Controller.fallBack, Controller.interrupt]
  all_goals repeat' split
  all_goals rfl

section Steps

variable
  {controller next : Controller}
  {memory after : Memory}
  {history : List Exchange}
  {exchange : Exchange}

/-- No step uses up more than its stage allows. -/
theorem Transition.within
    (taken : Transition controller memory exchange next after)
    (bounded : controller.policy.maxAttempts.toNat + 1 < UInt32.size)
    (within : controller.Within (failuresIn history) (connectionsIn history)) :
    next.Within (failuresIn (history ++ [exchange])) (connectionsIn (history ++ [exchange])) := by
  have spare := controller.spare_le_one
  cases silent : exchange.deliversEvent with
  | true =>
      have nothing := sinceNews_delivered history silent
      rw [failuresIn, connectionsIn, nothing]
      cases taken with
      | replayed stage =>
          simp only [Controller.Within, stage] at within
          exact Controller.Within.replay (UInt32.toNat_inj.mp (within.1.trans within.2.1)) _
      | @delivered event stage =>
          simp only [Controller.Within, stage] at within
          have counted : controller.failures.toNat = 0 := congrArg UInt32.toNat within.1
          simp only [Controller.goTo, Controller.Within]
          cases event.isTerminal <;> simp [counted]
      | _ => cases silent
  | false =>
      rw [failuresIn_concat _ silent, connectionsIn_concat _ silent]
      cases taken with
      | loaded stage =>
          simp only [Controller.Within, stage] at within
          obtain ⟨counted, none, nothing⟩ := within
          rw [none, nothing]
          exact Controller.Within.begin (UInt32.toNat_inj.mp (counted.trans none)) _
      | opened stage =>
          simp only [Controller.Within, stage] at within
          exact ⟨within.1, within.2.1, Nat.succ_le_succ within.2.2⟩
      | unknownRun stage requested =>
          simp only [Controller.Within, stage] at within
          -- The run is known by the request, so that it was not forgotten before.
          rw [Controller.spare_of_resume requested] at within
          exact ⟨within.1, within.2.1, Nat.succ_le_succ within.2.2⟩
      | @refused error stage fallsBack =>
          simp only [Controller.Within, stage] at within
          obtain ⟨counted, allowed, opened⟩ := within
          have fallen := Controller.Within.fallBack bounded counted allowed
            (Nat.succ_le_succ opened) error
          cases retryable : error.isRetryable <;>
            simpa [Exchange.failure?, Exchange.request?, retryable] using fallen
      | forgot stage =>
          simp only [Controller.Within, stage] at within
          split
          · exact within
          · exact Controller.Within.forget within.1 within.2.1 within.2.2
      | gaveUp stage =>
          simp only [Controller.Within, stage] at within
          exact Controller.Within.forget within.1 within.2.1 within.2.2
      | received stage =>
          exact within.receive stage _
      | ended stage =>
          simp only [Controller.Within, stage] at within
          exact Controller.Within.interrupt bounded within.1 within.2.1 within.2.2 _
      | @broken error stage =>
          simp only [Controller.Within, stage] at within
          obtain ⟨counted, allowed, opened⟩ := within
          have fallen := Controller.Within.fallBack bounded counted allowed opened error
          cases retryable : error.isRetryable <;>
            simpa [Exchange.failure?, Exchange.request?, retryable] using fallen
      | restarted stage =>
          simp only [Controller.Within, stage] at within
          exact Controller.Within.accept within _ _
      | saved stage | appended stage | settled stage =>
          simp only [Controller.Within, stage] at within
          exact within
      | marked stage =>
          simp only [Controller.Within, stage] at within
          have room : connectionsIn history ≤ controller.policy.maxAttempts.toNat + 2 := by omega
          exact room
      | cleared stage | closed stage =>
          simp only [Controller.Within, stage] at within
          exact within
      | waited stage =>
          simp only [Controller.Within, stage] at within
          exact within
      | cancelled stage =>
          simp only [Controller.Within, stage] at within
          have room : connectionsIn history ≤ controller.policy.maxAttempts.toNat + 2 := by omega
          exact room
      | replayed | delivered => cases silent

end Steps

namespace Session

variable {session : Session}

/-- What was used up since the last new event is never more than the stage allows. -/
theorem within_run
    (policy : RetryPolicy)
    (key : String)
    (input : RunInput)
    (memory : Memory)
    (bounded : policy.maxAttempts.toNat + 1 < UInt32.size)
    (moves : List Move) :
    let session := (start policy key input memory).run moves
    session.controller.policy = policy ∧
      session.controller.Within (failuresIn session.history) (connectionsIn session.history) := by
  refine run_keeps
    (fun session =>
      session.controller.policy = policy ∧
        session.controller.Within (failuresIn session.history) (connectionsIn session.history))
    ?_ ?_ (show _ ∧ _ ∧ _ ∧ _ from ⟨rfl, rfl, rfl, rfl⟩) moves
  · rintro session exchange controller memory ⟨same, within⟩ taken
    exact ⟨taken.policy_eq.trans same, taken.within (same ▸ bounded) within⟩
  · intro session memory before _
    exact before

/-- An error that may be tried again is no unknown run. -/
theorem refused_of_retryable
    {controller : Controller}
    {error : ClientError}
    (retryable : error.isRetryable = true) :
    controller.refused error = controller.interrupt error := by
  rcases controller.refused_cases error with same | ⟨body, responseId, lastNumber, rfl, -⟩
  · rw [same, Controller.fallBack, if_pos retryable]
  · cases retryable

/-- A connection that fails is an interruption. -/
theorem step_of_failure
    {given : Answer}
    {error : ClientError}
    (fails : Exchange.failure? ⟨session.controller.action, given⟩ = some error) :
    (session.controller.stage = .connecting ∨ session.controller.stage = .reading) ∧
      (session.step (.answer given)).controller = session.controller.interrupt error := by
  cases stage : session.controller.stage <;>
    cases given <;>
      simp_all [Controller.action, Exchange.failure?, step, reply?, Controller.advance,
        Controller.fallBack]
  case connecting.failed =>
    obtain ⟨retryable, rfl⟩ := fails
    exact refused_of_retryable retryable
  case reading.failed =>
    obtain ⟨retryable, rfl⟩ := fails
    simp [retryable]

/-- The next failure is followed by a wait and a connection, or it is the last one. -/
theorem next_of_failure
    (bounded : session.controller.policy.maxAttempts.toNat + 1 < UInt32.size)
    (within :
      session.controller.Within (failuresIn session.history) (connectionsIn session.history))
    {given : Answer}
    {error : ClientError}
    (fails : Exchange.failure? ⟨session.controller.action, given⟩ = some error) :
    let policy := session.controller.policy
    let attempt := failuresIn session.history + 1
    let next := session.step (.answer given)
    (attempt ≤ policy.maxAttempts.toNat ∧
        next.controller.action = .wait (policy.delayFor (.ofNat attempt)) ∧
        ∃ request, (next.step (.answer .done)).controller.action = .connect request) ∨
      attempt = policy.maxAttempts.toNat + 1 ∧
        next.controller.action =
          .fail (.retriesExhausted (policy.maxAttempts.toNat + 1) error) := by
  intro policy attempt next
  obtain ⟨stage, interrupted⟩ := step_of_failure fails
  have counted :
      session.controller.failures.toNat = failuresIn session.history ∧
        failuresIn session.history ≤ policy.maxAttempts.toNat := by
    rcases stage with stage | stage <;>
      (rw [Controller.Within, stage] at within; exact ⟨within.1, within.2.1⟩)
  have number := Controller.toNat_next_failure bounded (counted.1 ▸ counted.2)
  rw [counted.1] at number
  have same : session.controller.failures + 1 = .ofNat attempt := by
    have named : UInt32.ofNat (session.controller.failures + 1).toNat = .ofNat attempt :=
      congrArg UInt32.ofNat number
    rwa [UInt32.ofNat_toNat] at named
  by_cases more : policy.allows (session.controller.failures + 1) = true
  · have waits : next.controller.stage = .waiting (policy.delayFor (.ofNat attempt)) := by
      rw [interrupted, Controller.interrupt, if_pos more, same]
    have few : attempt ≤ policy.maxAttempts.toNat := by
      have fits := UInt32.le_iff_toNat_le.mp (of_decide_eq_true more)
      rwa [number] at fits
    refine .inl ⟨few, by rw [Controller.action, waits], next.controller.request, ?_⟩
    have connects : (next.step (.answer .done)).controller = next.controller.goTo .connecting := by
      simp [step, reply?, Controller.action, Controller.advance, Controller.proceed, waits]
    rw [connects]
    rfl
  · have many : attempt = policy.maxAttempts.toNat + 1 := by
      have exceeded : ¬session.controller.failures + 1 ≤ policy.maxAttempts := by
        simpa [RetryPolicy.allows] using more
      rw [UInt32.le_iff_toNat_le, number] at exceeded
      omega
    have fails :
        next.controller.stage = .failed (.retriesExhausted (policy.maxAttempts.toNat + 1) error) := by
      rw [interrupted, Controller.interrupt, if_neg more, number, ← many]
    exact .inr ⟨many, by rw [Controller.action, fails]⟩

/-- A stream that is refused a run that it resumes starts one, and counts no failure. -/
theorem next_of_unknown
    {responseId : String}
    {lastNumber : UInt64}
    (asked : session.controller.action = .connect (.resume responseId lastNumber))
    (body : String) :
    let next := session.step (.answer (.failed (.transport 404 body)))
    ∃ count,
      (next.run (asking count)).controller.action = .connect (.create session.controller.input) ∧
        failuresIn (next.run (asking count)).history = failuresIn session.history := by
  intro next
  obtain ⟨controller, memory, history⟩ := session
  obtain ⟨stage, requested⟩ := request_of_connect asked
  let unknown : Exchange := ⟨.connect controller.request, .failed (.transport 404 body)⟩
  let cleared : Exchange := ⟨.clear, .done⟩
  let told : Exchange := ⟨.deliver (.restarted controller.progress.lastNumber), .done⟩
  -- None of these exchanges counts as a failure.
  have quiet :
      failuresIn (history ++ [unknown] ++ [cleared]) = failuresIn history ∧
        failuresIn (history ++ [unknown] ++ [cleared] ++ [told]) = failuresIn history := by
    simp only [failuresIn_quiet _ unknown rfl rfl, failuresIn_quiet _ cleared rfl rfl,
      failuresIn_quiet _ told rfl rfl, and_self]
  have refused :
      next =
        { controller := controller.goTo .forgetting, memory, history := history ++ [unknown] } :=
    (Transition.unknownRun stage requested).step_eq history
  have forgets : Transition (controller.goTo .forgetting) memory cleared _ _ := .forgot rfl
  have forgot := forgets.step_eq (history ++ [unknown])
  cases delivered : controller.delivered with
  | false =>
      rw [Controller.goTo, if_neg (by simp [delivered])] at forgot
      have last : next.run (asking 1) = _ := (congrArg (step · _) refused).trans forgot
      refine ⟨1, ?_⟩
      rw [last]
      exact ⟨rfl, quiet.1⟩
  | true =>
      rw [Controller.goTo, if_pos (by simp [delivered])] at forgot
      have givesUp :
          Transition (controller.goTo .forgotten) (memory.clear controller.key) told _ _ :=
        .gaveUp rfl
      have gaveUp := givesUp.step_eq (history ++ [unknown] ++ [cleared])
      have last : next.run (asking 2) = _ :=
        (congrArg (fun session => step (step session _) _) refused).trans
          ((congrArg (step · _) forgot).trans gaveUp)
      refine ⟨2, ?_⟩
      rw [last]
      exact ⟨rfl, quiet.2⟩

/-- Only a stream that reads a connection asks for the next frame. -/
theorem reading_of_read
    (reads : session.controller.action = .read) :
    session.controller.stage = .reading := by
  cases stage : session.controller.stage <;>
    simp_all [Controller.action]

/-- An event that is repeated changes nothing. -/
theorem next_of_duplicate
    {event : Event}
    (reads : session.controller.action = .read)
    (repeated : admissionOf session.controller.progress event = .duplicate) :
    let next := session.step (.answer (.frame (.event event)))
    next.controller = session.controller ∧
      failuresIn next.history = failuresIn session.history := by
  have stage := reading_of_read reads
  have taken :
      Transition session.controller session.memory ⟨.read, .frame (.event event)⟩ _ _ :=
    .received stage
  have stepped := taken.step_eq session.history
  have same : session.controller.receive event = session.controller := by
    rw [Controller.receive, repeated]
  rw [same] at stepped
  refine stepped ▸ ⟨rfl, ?_⟩
  exact failuresIn_quiet session.history _ rfl rfl

/-- An error that may not be tried again ends the stream, unless a run is unknown. -/
theorem next_of_fatal
    {error : ClientError}
    (fatal : error.isRetryable = false)
    (asked :
      session.controller.action = .read ∨
        ∃ request,
          session.controller.action = .connect request ∧
            ∀ responseId lastNumber body,
              ¬(request = .resume responseId lastNumber ∧ error = .transport 404 body)) :
    (session.step (.answer (.failed error))).controller.action = .fail error := by
  have fails (controller : Controller) : (controller.fallBack error).action = .fail error := by
    rw [Controller.fallBack, if_neg (by simp [fatal])]
    rfl
  rcases asked with reads | ⟨request, connects, known⟩
  · have stage := reading_of_read reads
    simp [step, reply?, reads, Controller.advance, stage, fails]
  · obtain ⟨stage, requested⟩ := request_of_connect connects
    have fallsBack : session.controller.refused error = session.controller.fallBack error := by
      rcases session.controller.refused_cases error with
        same | ⟨body, responseId, lastNumber, unknown, resumes, -⟩
      · exact same
      · exact absurd ⟨requested ▸ resumes, unknown⟩ (known responseId lastNumber body)
    simp [step, reply?, connects, Controller.advance, stage, fallsBack, fails]

/-- A connection more than attempts, and one for a run that was forgotten. -/
theorem connectionsIn_le
    (within :
      session.controller.Within (failuresIn session.history) (connectionsIn session.history)) :
    connectionsIn session.history ≤ session.controller.policy.maxAttempts.toNat + 2 := by
  have spare := session.controller.spare_le_one
  cases stage : session.controller.stage <;>
    rw [Controller.Within, stage] at within <;>
      simp only at within <;>
        omega

/--
Whatever servers and timers do, if fewer attempts are allowed than can be counted: a failure
that has a number up to that of the attempts, counted from the last new event on, is followed
by the wait that belongs to its number and by a connection, and the one behind it ends the
stream and is told.  An event that is repeated and a run that is unknown when it is resumed
are not counted, and such a run is started.  Since the last new event there were at most two
connections more than attempts.  Any other error ends the stream as it is.
-/
theorem retries_until_exhausted
    (policy : RetryPolicy)
    (key : String)
    (input : RunInput)
    (memory : Memory)
    (moves : List Move)
    (bounded : policy.maxAttempts.toNat + 1 < UInt32.size) :
    let session := (start policy key input memory).run moves
    let most := policy.maxAttempts.toNat
    let attempt := failuresIn session.history + 1
    (∀ given error,
      Exchange.failure? ⟨session.controller.action, given⟩ = some error →
      let next := session.step (.answer given)
      (attempt ≤ most ∧
          next.controller.action = .wait (policy.delayFor (.ofNat attempt)) ∧
          ∃ request, (next.step (.answer .done)).controller.action = .connect request) ∨
        attempt = most + 1 ∧
          next.controller.action = .fail (.retriesExhausted (most + 1) error)) ∧
    (∀ event,
      session.controller.action = .read →
      admissionOf session.controller.progress event = .duplicate →
      let next := session.step (.answer (.frame (.event event)))
      next.controller = session.controller ∧
        failuresIn next.history = failuresIn session.history) ∧
    (∀ responseId lastNumber body,
      session.controller.action = .connect (.resume responseId lastNumber) →
      let next := session.step (.answer (.failed (.transport 404 body)))
      ∃ count,
        let later := next.run (asking count)
        later.controller.action = .connect (.create session.controller.input) ∧
          failuresIn later.history = failuresIn session.history) ∧
    connectionsIn session.history ≤ most + 2 ∧
    (∀ error,
      error.isRetryable = false →
      (session.controller.action = .read ∨
        ∃ request,
          session.controller.action = .connect request ∧
            ∀ responseId lastNumber body,
              ¬(request = .resume responseId lastNumber ∧ error = .transport 404 body)) →
      (session.step (.answer (.failed error))).controller.action = .fail error) := by
  intro session most attempt
  obtain ⟨same, within⟩ := within_run policy key input memory bounded moves
  rw [← same] at bounded
  refine ⟨?_, ?_, ?_, ?_, ?_⟩
  · intro given error fails
    have next := next_of_failure bounded within fails
    rwa [same] at next
  · intro event reads repeated
    exact next_of_duplicate reads repeated
  · intro responseId lastNumber body asked
    exact next_of_unknown asked body
  · have few := connectionsIn_le within
    rwa [same] at few
  · intro error fatal asked
    exact next_of_fatal fatal asked

open ShortRun

/--
With one attempt to try again, a stream breaks behind its first event and resumes its run: the
server may fail once more, not know the run or refuse the client.
-/
theorem retries_until_exhausted_once :
    let session :=
      (start { maxAttempts := 1 } "run" input []).run
        (interrupted ++ [.answer .done, .answer .closed, .answer .done])
    session.controller.action = .connect (.resume "run" 1) ∧
      failuresIn session.history = 1 ∧
      (session.step (.answer (.failed (.transport 500 "")))).controller.action =
        .fail (.retriesExhausted 2 (.transport 500 "")) ∧
      (∃ count,
        let later := (session.step (.answer (.failed (.transport 404 "")))).run (asking count)
        later.controller.action = .connect (.create input) ∧ failuresIn later.history = 1) ∧
      (session.step (.answer (.failed (.transport 401 "")))).controller.action =
        .fail (.transport 401 "") := by
  intro session
  have asked : session.controller.action = .connect (.resume "run" 1) := by decide
  have failed : failuresIn session.history = 1 := by decide
  have fails :
      Exchange.failure? ⟨session.controller.action, .failed (.transport 500 "")⟩ =
        some (.transport 500 "") := by
    rw [asked]
    rfl
  obtain ⟨counted, -, forgotten, -, fatal⟩ :=
    retries_until_exhausted { maxAttempts := 1 } "run" input []
      (interrupted ++ [.answer .done, .answer .closed, .answer .done]) (by decide)
  refine ⟨asked, failed, ?_, ?_, ?_⟩
  · rcases counted _ _ fails with ⟨few, -⟩ | ⟨-, exhausted⟩
    · exact absurd (failed ▸ few : failuresIn session.history + 1 ≤ 1) (by omega)
    · exact exhausted
  · obtain ⟨count, connects, same⟩ := forgotten "run" 1 "" asked
    exact ⟨count, connects, same.trans failed⟩
  · exact fatal (.transport 401 "") rfl (.inr ⟨_, asked, by simp⟩)

end Session

end AgentWire.Client

import AgentWire.Proofs.Server.Acceptance

namespace AgentWire.Server

/-!
# Behind an update that cannot be encoded

The events of an update that cannot be encoded are dropped, but what the encoder has
done for them is kept: it has started, it has the texts of the items before the failing
one behind it, and a failing call or result has closed the open text.  Later calls give
the same events as without the update exactly if all of this was so before.
-/

open Chat (ContentItem Registry Update)
open Client (Inbound)

namespace Encoder

/-- The answers to some calls, whether they fail or not, and the encoder behind them. -/
def attempt (encoder : Encoder) : List Call → List (Except ServerError (List Event)) × Encoder
  | [] => ([], encoder)
  | call :: rest =>
      let (answer, encoder) := encoder.perform call
      let (answers, last) := encoder.attempt rest
      (answer :: answers, last)

/-- From one supply of ids, two encoders give the same answers to all calls. -/
def GoesOnAs (encoder other : Encoder) : Prop :=
  ∀ supply calls,
    ({ encoder with supply }.attempt calls).1 = ({ other with supply }.attempt calls).1

/-- What an encoder does for an item that it cannot encode. -/
def giveUp (encoder : Encoder) : ContentItem → Encoder
  | .call _ | .result _ => { encoder with openText := none }
  | .text _ | .error _ _ | .data _ _ => encoder

/-- No encode among some calls fails and leaves another text open than before. -/
def Steady (encoder : Encoder) : List Call → Prop
  | [] => True
  | call :: rest =>
      let (answer, next) := encoder.perform call
      (∀ error, answer = .error error → next.openText = encoder.openText) ∧ next.Steady rest

end Encoder

/-- The events in some answers. -/
def handed (answers : List (Except ServerError (List Event))) : List Event :=
  answers.flatMap fun answer => answer.toOption.getD []

namespace Encoder

variable
  {encoder next failed : Encoder}
  {update : Update}
  {item : ContentItem}
  {items : List ContentItem}
  {problem : Problem}
  {error : ServerError}

/-! ### What a failed encode leaves -/

/-- An item that cannot be encoded closes the open text if it is a call or a result, and no more. -/
theorem encodeItem_error
    (refused : encoder.encodeItem update item = (.error problem, failed)) :
    failed = encoder.giveUp item := by
  cases item with
  | text words =>
      simp only [encodeItem] at refused
      split at refused <;>
        cases refused
  | error message code =>
      cases refused
  | call made =>
      simp only [encodeItem, closeText_snd] at refused
      exact (congrArg Prod.snd refused).symm
  | result given =>
      simp only [encodeItem, closeText_snd] at refused
      split at refused
      · cases refused
      · exact (congrArg Prod.snd refused).symm
  | data mediaType bytes =>
      simp only [encodeItem] at refused
      split at refused <;>
        cases refused
      rfl

/-- A list of items that cannot be encoded fails at one of them, behind others that were. -/
theorem encodeItems_error
    (running : encoder.stopped = false)
    (refused : encoder.encodeItems update items = (.error problem, failed)) :
    ∃ before item after events middle,
      items = before ++ item :: after ∧
        encoder.encodeItems update before = (.ok events, middle) ∧
        middle.stopped = false ∧
        failed = middle.giveUp item := by
  induction items generalizing encoder with
  | nil =>
      cases refused
  | cons first rest inductionHypothesis =>
      rw [encodeItems] at refused
      cases written : encoder.encodeItem update first with
      | mk result middle =>
          cases result with
          | error problem =>
              simp only [written, Prod.mk.injEq] at refused
              obtain ⟨-, rfl⟩ := refused
              exact ⟨[], first, rest, [], encoder, rfl, rfl, running, encodeItem_error written⟩
          | ok events =>
              cases stopped : middle.stopped with
              | true =>
                  simp [written, stopped] at refused
              | false =>
                  cases others : middle.encodeItems update rest with
                  | mk result last =>
                      cases result with
                      | ok more =>
                          simp [written, stopped, others, Except.map] at refused
                      | error problem =>
                          -- The first item was written, so it is one of the others that fails.
                          simp only [written, stopped, others, Except.map, Bool.false_eq_true,
                            if_false, Prod.mk.injEq, Except.error.injEq] at refused
                          obtain ⟨rfl, rfl⟩ := refused
                          obtain ⟨before, item, after, more, between, rfl, encoded, goesOn, left⟩ :=
                            inductionHypothesis stopped others
                          refine ⟨first :: before, item, after, events ++ more, between, rfl, ?_,
                            goesOn, left⟩
                          simp [encodeItems, written, stopped, encoded, Except.map]

/-- Choosing the text for an update goes on with the run. -/
theorem goesOn_textFor (encoder : Encoder) (update : Update) :
    GoesOn encoder (encoder.textFor update).2.2 := by
  rw [textFor]
  split
  · exact ⟨rfl, rfl, rfl, rfl⟩
  · split
    · exact ⟨rfl, rfl, rfl, rfl⟩
    · simp only [closeText_snd]
      exact ⟨rfl, rfl, rfl, rfl⟩

/-- Encoding an item goes on with the run, whether it fails or not. -/
theorem goesOn_encodeItem (encoder : Encoder) (update : Update) (item : ContentItem) :
    GoesOn encoder (encoder.encodeItem update item).2 := by
  cases item with
  | text words =>
      simp only [encodeItem]
      split
      · exact ⟨rfl, rfl, rfl, rfl⟩
      · exact goesOn_textFor encoder update
  | call made =>
      simp only [encodeItem, closeText_snd]
      exact ⟨rfl, rfl, rfl, rfl⟩
  | result given =>
      simp only [encodeItem, closeText_snd]
      split <;>
        exact ⟨rfl, rfl, rfl, rfl⟩
  | error message code =>
      simp only [encodeItem, closeText_snd]
      exact ⟨rfl, rfl, rfl, rfl⟩
  | data mediaType bytes =>
      simp only [encodeItem]
      split <;>
        exact ⟨rfl, rfl, rfl, rfl⟩

/-- Encoding items goes on with the run, also up to the one that fails. -/
theorem goesOn_encodeItems (encoder : Encoder) (update : Update) (items : List ContentItem) :
    GoesOn encoder (encoder.encodeItems update items).2 := by
  induction items generalizing encoder with
  | nil =>
      exact ⟨rfl, rfl, rfl, rfl⟩
  | cons item rest inductionHypothesis =>
      have first := goesOn_encodeItem encoder update item
      rw [encodeItems]
      cases written : encoder.encodeItem update item with
      | mk result middle =>
          rw [written] at first
          cases result with
          | error problem =>
              exact first
          | ok events =>
              simp only
              split
              · exact first
              · exact first.trans (inductionHypothesis middle)

/-- Giving up an item does not end the run. -/
theorem stopped_giveUp (encoder : Encoder) (item : ContentItem) :
    (encoder.giveUp item).stopped = encoder.stopped := by
  cases item <;>
    rfl

/-- What an encoder is behind an update that it could not encode. -/
structure Fails (encoder failed : Encoder) (update : Update) : Prop where
  threadId : failed.threadId = encoder.threadId
  runId : failed.runId = encoder.runId
  registry : failed.registry = encoder.registry
  started : failed.started = true
  running : encoder.stopped = false
  goesOn : failed.stopped = false
  left :
    ∃ before item after events middle,
      update.contents = before ++ item :: after ∧
        encoder.start.2.encodeItems update before = (.ok events, middle) ∧
        failed = middle.giveUp item

/-- An encoder that runs is started and otherwise stays as it is. -/
theorem start_of_running
    (running : encoder.stopped = false) :
    encoder.start.2 = { encoder with started := true } := by
  rcases encoder with ⟨_, _, _, _, _, started, stopped, _⟩
  obtain rfl : stopped = false := running
  cases started <;>
    rfl

theorem registry_start (encoder : Encoder) : encoder.start.2.registry = encoder.registry := by
  rw [start]
  split <;>
    rfl

/-- An update that fails leaves the encoder behind the items before the failing one. -/
theorem fails_of_encode
    (refused : encoder.encode update = (.error error, failed)) :
    Fails encoder failed update := by
  simp only [encode] at refused
  cases stopped : encoder.stopped with
  | true =>
      simp [start, stopped] at refused
  | false =>
      have starts := start_of_running stopped
      have running : encoder.start.2.stopped = false := by
        rw [starts]
        exact stopped
      cases written : encoder.start.2.encodeItems update update.contents with
      | mk result last =>
          simp only [running, written, Bool.false_eq_true, if_false, Prod.mk.injEq] at refused
          obtain ⟨refused, rfl⟩ := refused
          cases result with
          | ok events =>
              cases refused
          | error problem =>
              obtain ⟨before, item, after, events, middle, split, encoded, goesOn, left⟩ :=
                encodeItems_error running written
              have same := goesOn_encodeItems encoder.start.2 update update.contents
              rw [written, starts] at same
              exact ⟨same.threadId, same.runId, same.registry, same.started, stopped,
                by rw [left, stopped_giveUp, goesOn],
                before, item, after, events, middle, split, encoded, left⟩

/-! ### Which answers come later -/

/-- An update with a call, whose events tell all that an encoder remembers. -/
def probe : Update where
  role := .assistant
  contents := [.call ⟨"", "", none⟩]

/-- The events of the probe tell the run, the open text and the last text. -/
theorem encode_probe
    (running : encoder.stopped = false) :
    (encoder.encode probe).1 =
      .ok ((if encoder.started then []
            else [(EventBody.runStarted encoder.threadId encoder.runId).toEvent])
        ++ encoder.openText.toList.map (fun id => (EventBody.textMessageEnd id).toEvent)
        ++ [(EventBody.toolCallStart "" "" encoder.lastText).toEvent,
            (EventBody.toolCallEnd "").toEvent]) := by
  rcases encoder with ⟨_, _, _, openText, _, started, stopped, _⟩
  obtain rfl : stopped = false := running
  cases openText <;>
    cases started <;>
      rfl

/--
Encoders of one run that have not stopped give the same answers to all calls exactly if
they have the same in memory.
-/
theorem goesOnAs_iff
    {other : Encoder}
    (threadId : other.threadId = encoder.threadId)
    (runId : other.runId = encoder.runId)
    (registry : other.registry = encoder.registry)
    (running : encoder.stopped = false)
    (otherRunning : other.stopped = false) :
    other.GoesOnAs encoder ↔
      other.started = encoder.started ∧
        other.openText = encoder.openText ∧
        other.lastText = encoder.lastText := by
  rcases encoder with ⟨_, _, _, openText, lastText, started, _, _⟩
  rcases other with ⟨_, _, _, otherOpen, otherLast, otherStarted, _, _⟩
  dsimp only at threadId runId registry running otherRunning ⊢
  subst threadId runId registry running otherRunning
  constructor
  · intro same
    have answers := same {} [.encode probe]
    simp only [attempt, perform, encode_probe, List.cons.injEq, Except.ok.injEq,
      and_true] at answers
    cases started <;>
      cases otherStarted <;>
        cases openText <;>
          cases otherOpen <;>
            simp_all [EventBody.toEvent]
  · rintro ⟨rfl, rfl, rfl⟩ supply calls
    rfl

end Encoder

/-! ### What a client accepts -/

/-- A client accepts each of some events. -/
def TakesAll (machine : Inbound) (events : List Event) : Prop :=
  ∃ last updates, machine.follow events = .ok (last, updates)

/-- A client that has followed events takes what comes behind them from there. -/
theorem takesAll_append
    {machine between : Inbound}
    {first rest : List Event}
    {updates : List Update}
    (followed : machine.follow first = .ok (between, updates)) :
    TakesAll machine (first ++ rest) ↔ TakesAll between rest := by
  induction first generalizing machine updates with
  | nil =>
      cases followed
      rfl
  | cons event first inductionHypothesis =>
      obtain ⟨next, update, more, accepted, others, -⟩ := Inbound.exists_of_follow_cons followed
      rw [← inductionHypothesis others]
      constructor
      · rintro ⟨last, received, taken⟩
        obtain ⟨other, told, behind, same, takenRest, -⟩ := Inbound.exists_of_follow_cons taken
        rw [accepted] at same
        cases same
        exact ⟨last, behind, takenRest⟩
      · rintro ⟨last, received, taken⟩
        exact ⟨last, _, Inbound.follow_cons accepted taken⟩

/-- A client has open what an encoder holds open, which is nothing before its run starts. -/
structure InStep (encoder : Encoder) (machine : Inbound) : Prop where
  shows : Shows encoder.openText machine.phase
  unstarted : encoder.started = false → encoder.openText = none

namespace InStep

variable
  {encoder next : Encoder}
  {machine : Inbound}
  {update : Update}
  {call : Call}
  {events : List Event}
  {answer : Except ServerError (List Event)}

/-- A client stays in step with an encoder that starts its run. -/
theorem start (inStep : InStep encoder machine) :
    ∃ last updates,
      machine.follow encoder.start.1 = .ok (last, updates) ∧
        InStep encoder.start.2 last ∧
        (encoder.start.2.stopped = false → encoder.start.2.started = true) := by
  by_cases silent : (encoder.started || encoder.stopped) = true
  · have starts : encoder.start = ([], encoder) := by
      rw [Encoder.start, if_pos silent]
    rw [starts]
    refine ⟨machine, [], rfl, inStep, ?_⟩
    intro running
    rwa [running, Bool.or_false] at silent
  · have starts :
        encoder.start =
          ([(EventBody.runStarted encoder.threadId encoder.runId).toEvent],
            { encoder with started := true }) := by
      rw [Encoder.start, if_neg silent]
    simp only [Bool.or_eq_true, not_or, Bool.not_eq_true] at silent
    have nothing : encoder.openText = none := inStep.unstarted silent.1
    have idle : machine.phase = .idle := by
      have shows := inStep.shows
      rwa [nothing] at shows
    have accepted :
        ∃ last update,
          machine.apply (EventBody.runStarted encoder.threadId encoder.runId).toEvent =
              .ok (last, some update) ∧
            last.phase = .idle := by
      simp [Inbound.apply, EventBody.toEvent, idle]
    obtain ⟨last, update, accepted, lastIdle⟩ := accepted
    rw [starts]
    refine ⟨last, [update], Inbound.follow_singleton accepted, ⟨?_, ?_⟩, fun _ => rfl⟩
    · show Shows encoder.openText last.phase
      rw [nothing]
      exact lastIdle
    · intro unstarted
      cases unstarted

/-- A client stays in step with an encoder that encodes an update. -/
theorem encode
    (inStep : InStep encoder machine)
    (readable : ReadableUpdate encoder.registry update)
    (encoded : encoder.encode update = (.ok events, next)) :
    ∃ last updates, machine.follow events = .ok (last, updates) ∧ InStep next last := by
  obtain ⟨middle, starting, followed, started, begins⟩ := inStep.start
  simp only [Encoder.encode] at encoded
  cases stopped : encoder.start.2.stopped with
  | true =>
      simp only [stopped, if_true, Prod.mk.injEq, Except.ok.injEq] at encoded
      obtain ⟨rfl, rfl⟩ := encoded
      exact ⟨middle, starting, followed, started⟩
  | false =>
      cases written : encoder.start.2.encodeItems update update.contents with
      | mk result behind =>
          simp only [stopped, written, Bool.false_eq_true, if_false, Prod.mk.injEq] at encoded
          obtain ⟨encoded, rfl⟩ := encoded
          cases result with
          | error problem =>
              cases encoded
          | ok rest =>
              cases encoded
              have registry := Encoder.registry_start encoder
              obtain ⟨last, received, heard, -, -⟩ :=
                Encoder.heard_of_encodeItems stopped started.shows
                  (fun call member => registry ▸ readable call member) written
              refine ⟨last, starting ++ received,
                Inbound.follow_append followed heard.followed, heard.shows, ?_⟩
              intro unstarted
              rw [heard.goesOn.started, begins stopped] at unstarted
              cases unstarted

/-- A client stays in step with an encoder that finishes its run. -/
theorem finish
    (inStep : InStep encoder machine)
    (result : Option Json) :
    ∃ last updates,
      machine.follow (encoder.finish result).1 = .ok (last, updates) ∧
        InStep (encoder.finish result).2 last := by
  obtain ⟨middle, starting, followed, started, begins⟩ := inStep.start
  simp only [Encoder.finish]
  cases stopped : encoder.start.2.stopped with
  | true =>
      simp only [if_true]
      exact ⟨middle, starting, followed, started⟩
  | false =>
      obtain ⟨closed, -⟩ := Encoder.closeText_followed started.shows
      have finished :
          ∃ last update,
            Inbound.apply { middle with phase := .idle }
                (EventBody.runFinished encoder.start.2.threadId encoder.start.2.runId
                  result).toEvent =
              .ok (last, some update) ∧
              last.phase = .idle :=
        ⟨_, _, rfl, rfl⟩
      obtain ⟨last, update, accepted, idle⟩ := finished
      simp only [Bool.false_eq_true, if_false, Encoder.closeText_snd]
      exact ⟨last, _, Inbound.follow_append (Inbound.follow_append followed closed)
        (Inbound.follow_singleton accepted), idle, fun _ => rfl⟩

/-- What is handed over of a call that leaves the text as it was if it fails is accepted. -/
theorem perform
    (inStep : InStep encoder machine)
    (readable : ∀ update, call = .encode update → ReadableUpdate encoder.registry update)
    (performed : encoder.perform call = (answer, next))
    (harmless : ∀ error, answer = .error error → next.openText = encoder.openText) :
    ∃ last updates,
      machine.follow (answer.toOption.getD []) = .ok (last, updates) ∧ InStep next last := by
  cases call with
  | start =>
      cases performed
      obtain ⟨last, updates, followed, started, -⟩ := inStep.start
      exact ⟨last, updates, followed, started⟩
  | finish result =>
      cases performed
      exact inStep.finish result
  | encode update =>
      cases answer with
      | ok events =>
          exact inStep.encode (readable update rfl) performed
      | error error =>
          have fails := Encoder.fails_of_encode performed
          refine ⟨machine, [], rfl, ⟨?_, ?_⟩⟩
          · rw [harmless error rfl]
            exact inStep.shows
          · intro unstarted
            rw [fails.started] at unstarted
            cases unstarted

/-- A client does not accept the end of a run from an encoder that has something else open. -/
theorem not_takesAll_finish
    (inStep : InStep encoder machine)
    (fails : Encoder.Fails encoder next update)
    (other : next.openText ≠ encoder.openText) :
    ¬TakesAll machine (next.finish none).1 := by
  have silent : next.start = ([], next) := by
    rw [Encoder.start, fails.started]
    rfl
  have finished :
      (next.finish none).1 =
        next.openText.toList.map (fun id => (EventBody.textMessageEnd id).toEvent) ++
          [(EventBody.runFinished next.threadId next.runId none).toEvent] := by
    simp only [Encoder.finish, silent, fails.goesOn, Bool.false_eq_true, if_false,
      List.nil_append, Encoder.closeText_snd]
    rw [Encoder.closeText]
    cases next.openText <;>
      rfl
  have shows := inStep.shows
  rintro ⟨last, updates, taken⟩
  rw [finished] at taken
  -- What the client has open is not what the encoder ends now, so the client refuses it.
  cases opened : encoder.openText with
  | none =>
      rw [opened] at shows other
      have idle : machine.phase = .idle := shows
      cases nextOpened : next.openText with
      | none =>
          exact other nextOpened
      | some id =>
          simp [nextOpened, Inbound.follow, Inbound.apply, EventBody.toEvent, Inbound.endText,
            idle, Inbound.unexpected, bind, Except.bind] at taken
  | some current =>
      rw [opened] at shows other
      obtain ⟨role, phase⟩ := shows
      cases nextOpened : next.openText with
      | none =>
          simp [nextOpened, Inbound.follow, Inbound.apply, EventBody.toEvent, phase,
            Inbound.unexpected, bind, Except.bind] at taken
      | some id =>
          have different : current ≠ id := by
            rintro rfl
            exact other nextOpened
          simp [nextOpened, Inbound.follow, Inbound.apply, EventBody.toEvent, Inbound.endText,
            phase, different, Inbound.violated, bind, Except.bind] at taken

end InStep

/-! ### Runs of calls, some of which fail -/

namespace Encoder

variable
  {encoder : Encoder}
  {machine : Inbound}
  {calls : List Call}

/-- No call changes the serializers of an encoder. -/
theorem registry_perform (encoder : Encoder) (call : Call) :
    (encoder.perform call).2.registry = encoder.registry := by
  cases call with
  | start =>
      exact registry_start encoder
  | encode update =>
      simp only [perform, encode]
      split
      · exact registry_start encoder
      · exact (goesOn_encodeItems _ update update.contents).registry.trans (registry_start encoder)
  | finish result =>
      simp only [perform, finish]
      split
      · exact registry_start encoder
      · simp only [closeText_snd]
        exact registry_start encoder

theorem handed_attempt_cons (encoder : Encoder) (call : Call) (rest : List Call) :
    handed (encoder.attempt (call :: rest)).1 =
      (encoder.perform call).1.toOption.getD [] ++
        handed ((encoder.perform call).2.attempt rest).1 :=
  List.flatMap_cons

/-- A client in step accepts the end of the run. -/
theorem takesAll_finish (inStep : InStep encoder machine) :
    TakesAll machine (handed (encoder.attempt [.finish none]).1) := by
  obtain ⟨last, updates, followed, -⟩ := inStep.finish none
  rw [handed_attempt_cons]
  exact ⟨last, updates, by simpa [handed, attempt, perform]⟩

/--
A client accepts what is handed over, wherever the calls end, exactly if each failed encode
left the text open that was open before.
-/
theorem steady_iff
    (inStep : InStep encoder machine)
    (readable : ∀ update, .encode update ∈ calls → ReadableUpdate encoder.registry update) :
    encoder.Steady calls ↔
      ∀ first,
        first <+: calls →
          TakesAll machine (handed (encoder.attempt (first ++ [.finish none])).1) := by
  induction calls generalizing encoder machine with
  | nil =>
      simp only [Steady, List.prefix_nil, forall_eq, true_iff]
      exact takesAll_finish inStep
  | cons call rest inductionHypothesis =>
      cases performed : encoder.perform call with
      | mk answer next =>
          -- What is handed over splits behind the first call, wherever the calls end.
          have handedNext (more : List Call) :
              handed (encoder.attempt (call :: more)).1 =
                answer.toOption.getD [] ++ handed (next.attempt more).1 := by
            rw [handed_attempt_cons, performed]
          by_cases harmless : ∀ error, answer = .error error → next.openText = encoder.openText
          · obtain ⟨between, updates, followed, inStepNext⟩ :=
              inStep.perform (fun update shape => readable update (by simp [shape])) performed
                harmless
            have registry : next.registry = encoder.registry := by
              rw [← registry_perform encoder call, performed]
            have others :=
              inductionHypothesis inStepNext
                fun update member => registry ▸ readable update (by simp [member])
            simp only [Steady, performed, others]
            constructor
            · rintro ⟨-, taken⟩ first start
              rcases List.prefix_cons_iff.mp start with rfl | ⟨more, rfl, moreStart⟩
              · exact takesAll_finish inStep
              · rw [List.cons_append, handedNext, takesAll_append followed]
                exact taken more moreStart
            · intro taken
              refine ⟨harmless, fun first start => ?_⟩
              have whole := taken (call :: first) (List.cons_prefix_cons.mpr ⟨rfl, start⟩)
              rwa [List.cons_append, handedNext, takesAll_append followed] at whole
          · -- The run is ended right behind the encode that did harm.
            refine iff_of_false (fun steady => harmless ?_) fun taken => harmless ?_
            · simp only [Steady, performed] at steady
              exact steady.1
            · rintro error rfl
              by_contra other
              have whole := taken [call] (List.cons_prefix_cons.mpr ⟨rfl, List.nil_prefix⟩)
              rw [List.singleton_append, handedNext, handed_attempt_cons] at whole
              cases call with
              | start | finish =>
                  cases performed
              | encode update =>
                  have fails := fails_of_encode performed
                  exact inStep.not_takesAll_finish fails other
                    (by simpa [handed, attempt, perform, Except.toOption] using whole)

end Encoder

/--
An update that cannot be encoded gives no events, and the encoder has started behind it,
has the texts of the items before the failing one behind it, and has closed the open text
if that is a call or a result.  All later calls give the same events as without the update
exactly if the run had started and the same text is open, and the same one was opened last,
as before.  A client accepts all that is handed over, wherever the calls end, exactly if
each failed encode left the text open that was open before.
-/
theorem answers_behind_failed_encode
    (threadId runId : String)
    (registry : Registry)
    (supply : IdSupply)
    (calls : List Call) :
    let fresh : Encoder := { threadId, runId, registry, supply }
    let encoder := (fresh.attempt calls).2
    (∀ update error failed,
        encoder.encode update = (.error error, failed) →
          Encoder.Fails encoder failed update ∧
            (failed.GoesOnAs encoder ↔
              encoder.started = true ∧
                failed.openText = encoder.openText ∧
                failed.lastText = encoder.lastText)) ∧
      ((∀ update, .encode update ∈ calls → ReadableUpdate registry update) →
        (fresh.Steady calls ↔
          ∀ first,
            first <+: calls →
              TakesAll {} (handed (fresh.attempt (first ++ [.finish none])).1))) := by
  intro fresh encoder
  refine ⟨fun update error failed refused => ?_, fun readable => ?_⟩
  · have fails := Encoder.fails_of_encode refused
    refine ⟨fails, ?_⟩
    rw [Encoder.goesOnAs_iff fails.threadId fails.runId fails.registry fails.running fails.goesOn,
      fails.started, eq_comm]
  · have inStep : InStep fresh {} := ⟨rfl, fun _ => rfl⟩
    exact Encoder.steady_iff inStep readable

namespace Unregistered

/-- A text. -/
def hello : Update where
  role := .assistant
  contents := [.text "Hello"]
  messageId := some "m1"

/-- A call with an argument that no serializer is registered for. -/
def opaqueCall : Update where
  role := .assistant
  contents := [.call ⟨"c1", "f", some [("x", .custom ⟨"Opaque", 0, .null⟩)]⟩]

/-- An encoder that knows no serializers. -/
def fresh : Encoder where
  threadId := "t"
  runId := "r"

/-- The calls in these updates can be read back where they can be written. -/
theorem readable (update : Update) (call : Chat.FunctionCall)
    (made : .call call ∈ update.contents)
    (among : update = hello ∨ update = opaqueCall) :
    Readable .empty call := by
  rintro arguments document given serialized
  rcases among with rfl | rfl
  · simp [hello] at made
  · simp only [opaqueCall, List.mem_singleton, ContentItem.call.injEq] at made
    subst made
    cases given
    cases serialized

end Unregistered

open Unregistered

/-- A call that fails with no text open, and one that fails behind a text. -/
theorem answers_behind_failed_encode_opaque :
    (∃ error failed,
      (fresh.attempt [.start]).2.encode opaqueCall = (.error error, failed) ∧
        failed.GoesOnAs (fresh.attempt [.start]).2) ∧
      (∃ error failed,
        (fresh.attempt [.encode hello]).2.encode opaqueCall = (.error error, failed) ∧
          ¬failed.GoesOnAs (fresh.attempt [.encode hello]).2) ∧
      TakesAll {} (handed (fresh.attempt [.start, .encode opaqueCall, .finish none]).1) := by
  refine ⟨?_, ?_, ?_⟩
  · have refused :
        (fresh.attempt [.start]).2.encode opaqueCall =
          (.error (.protocol (.unregisteredType "Opaque")), { fresh with started := true }) :=
      rfl
    have behind := answers_behind_failed_encode "t" "r" .empty {} [.start]
    exact ⟨_, _, refused, (behind.1 _ _ _ refused).2.mpr ⟨rfl, rfl, rfl⟩⟩
  · have refused :
        (fresh.attempt [.encode hello]).2.encode opaqueCall =
          (.error (.protocol (.unregisteredType "Opaque")),
           { fresh with started := true, lastText := some "m1" }) :=
      rfl
    have behind := answers_behind_failed_encode "t" "r" .empty {} [.encode hello]
    refine ⟨_, _, refused, fun same => ?_⟩
    have kept := (behind.1 _ _ _ refused).2.mp same
    cases kept.2.1
  · have behind := answers_behind_failed_encode "t" "r" .empty {} [.start, .encode opaqueCall]
    have steady : fresh.Steady [.start, .encode opaqueCall] := by
      refine ⟨?_, ?_, trivial⟩
      · rintro error ⟨⟩
      · intro _ _
        rfl
    refine (behind.2 fun update member call made => ?_).mp steady _ List.prefix_rfl
    exact readable update call made (.inr (by simpa using member))

/-- An encoder may go on otherwise behind an update that it could not encode, and a client
may refuse what it hands over. -/
theorem not_untouched_by_failed_encode :
    (¬∀ (threadId runId : String) (registry : Registry) (supply : IdSupply)
        (calls : List Call) (update : Update) (error : ServerError) (failed : Encoder),
        let encoder := (Encoder.attempt { threadId, runId, registry, supply } calls).2
        encoder.encode update = (.error error, failed) →
          failed.GoesOnAs encoder) ∧
      ¬∀ (threadId runId : String) (registry : Registry) (supply : IdSupply)
          (calls : List Call),
          (∀ update, .encode update ∈ calls → ReadableUpdate registry update) →
            TakesAll {}
              (handed (Encoder.attempt { threadId, runId, registry, supply } calls).1) := by
  constructor
  · intro goesOnUntouched
    have same :=
      goesOnUntouched "t" "r" .empty {} [.encode hello] opaqueCall _ _ rfl {} [.finish none]
    cases same
  · intro alwaysTaken
    have taken :=
      alwaysTaken "t" "r" .empty {} [.encode hello, .encode opaqueCall, .finish none] ?_
    · obtain ⟨last, updates, followed⟩ := taken
      cases followed
    · intro update member call made
      exact readable update call made (by simpa using member)

end AgentWire.Server

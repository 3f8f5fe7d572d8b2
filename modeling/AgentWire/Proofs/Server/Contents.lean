import AgentWire.Proofs.Server.Acceptance

namespace AgentWire.Server

/-!
# Contents survive

The items of updates that are encoded, sent and taken by a client are the items
that the client hands on: in order, none added, and none lost up to the first
error but empty texts and data that is no state.
-/

open Chat (ContentItem Registry Update)
open Client (Inbound)

theorem labelled_cons (update : Update) (rest : List Update) :
    labelled (update :: rest) = labelled [update] ++ labelled rest :=
  labelled_append [update] rest

theorem labelled_any (update : Update) :
    (labelled [update]).any (fun sent => endsRun sent.2) = update.contents.any endsRun := by
  simp [labelled, List.any_map, Function.comp_def]

/-- Behind other items everything arrives as it does alone, and behind an error nothing. -/
theorem arrivals_append
    (registry : Registry)
    (first rest : List (Option String × ContentItem)) :
    arrivals registry (first ++ rest) =
      arrivals registry first ++
        if first.any (fun sent => endsRun sent.2) then [] else arrivals registry rest := by
  induction first with
  | nil =>
      rfl
  | cons sent first inductionHypothesis =>
      obtain ⟨id, item⟩ := sent
      rw [List.cons_append, arrivals_cons, arrivals_cons, inductionHypothesis, List.any_cons]
      cases endsRun item with
      | false =>
          rw [Bool.false_or]
          simp
      | true =>
          simp

/-- An encoder whose run has ended gives no more events. -/
theorem Encoder.performAll_of_stopped
    {encoder : Encoder}
    (ended : encoder.stopped = true)
    (calls : List Call) :
    encoder.performAll calls = .ok ([], encoder) := by
  induction calls with
  | nil =>
      rfl
  | cons call rest inductionHypothesis =>
      have silent : encoder.perform call = (.ok [], encoder) := by
        cases call <;>
          simp [Encoder.perform, Encoder.encode, Encoder.finish, Encoder.start, ended]
      simp [Encoder.performAll, silent, inductionHypothesis, bind, Except.bind]

/-- Updates that are encoded up to the end of the run arrive, whatever was sent before them. -/
theorem Followed.encodeAll
    {encoder last : Encoder}
    {events more : List Event}
    {machine : Inbound}
    {received updates : List Update}
    (before : Followed encoder events machine received)
    (running : encoder.stopped = false)
    (sendable : ∀ update ∈ updates, ∀ item ∈ update.contents, Sendable encoder.registry item)
    (performed :
      encoder.performAll (updates.map .encode ++ [.finish none]) = .ok (more, last)) :
    ∃ machine' further,
      Followed last (events ++ more) machine' (received ++ further) ∧
        List.Forall₂ Arrives (arrivals encoder.registry (labelled updates))
          (labelled further) := by
  induction updates generalizing encoder events machine received more with
  | nil =>
      obtain ⟨machine', further, followed, -, -, -, silent⟩ := before.finish none
      simp only [List.map_nil, List.nil_append, Encoder.performAll, Encoder.perform, bind,
        Except.bind, List.append_nil, Except.ok.injEq, Prod.mk.injEq] at performed
      obtain ⟨rfl, rfl⟩ := performed
      refine ⟨machine', further, followed, ?_⟩
      rw [silent rfl]
      exact .nil
  | cons update rest inductionHypothesis =>
      rw [List.map_cons, List.cons_append] at performed
      obtain ⟨first, next, behind, one, others, rfl⟩ := Encoder.performAll_cons_ok performed
      have readable : ReadableUpdate encoder.registry update := fun call member =>
        (sendable update (by simp) _ member).readable
      obtain ⟨between, heard, followed, registry, -, stopped, arrived⟩ :=
        before.encode readable one
      have arrives := arrived running (sendable update (by simp))
      rw [labelled_cons, arrivals_append, labelled_any]
      by_cases ends : update.contents.any endsRun = true
      · -- Nothing behind the first error is sent.
        have ended : next.stopped = true := by
          simp [stopped, ends]
        rw [Encoder.performAll_of_stopped ended] at others
        cases others
        refine ⟨between, heard, ?_, ?_⟩
        · rwa [List.append_nil]
        · rwa [if_pos ends, List.append_nil]
      · have goesOn : next.stopped = false := by
          simpa [running, ends] using stopped
        obtain ⟨machine', further, followedAll, arrivesAll⟩ :=
          inductionHypothesis followed goesOn
            (fun other member => registry ▸ sendable other (by simp [member])) others
        refine ⟨machine', heard ++ further, ?_, ?_⟩
        · rwa [← List.append_assoc, ← List.append_assoc]
        · rw [if_neg ends, labelled_append, ← registry]
          exact List.rel_append (registry ▸ arrives) arrivesAll

/--
The items that a client hands on when it takes the events of some updates, each
of which is encoded, and of the end of their run: the items of the updates up to
the first error, in order, with custom payloads replaced by their documents and
without empty texts and data that is no state.  A text comes under the message
id of its update.
-/
theorem contents_survive
    (threadId runId : String)
    (registry : Registry)
    (supply : IdSupply)
    {updates : List Update}
    (sendable : ∀ update ∈ updates, ∀ item ∈ update.contents, Sendable registry item)
    {events : List Event}
    {last : Encoder}
    (performed :
      Encoder.performAll { threadId, runId, registry, supply }
          (updates.map .encode ++ [.finish none]) =
        .ok (events, last)) :
    Inbound.follow {} events = .ok (Inbound.run {} events) ∧
      List.Forall₂ Arrives (arrivals registry (labelled updates))
        (labelled (Inbound.run {} events).2) := by
  obtain ⟨machine, received, followed, arrives⟩ :=
    (Followed.fresh threadId runId registry supply).encodeAll rfl sendable performed
  have taken := Inbound.run_of_follow followed.followed
  rw [List.nil_append] at taken
  rw [taken]
  exact ⟨followed.followed, arrives⟩

/-- Updates with every kind of item, and with a state and a change of it. -/
theorem contents_survive_mixed :
    ∃ events last,
      Encoder.performAll { threadId := "thread", runId := "run", registry := pointRegistry }
          (mixedUpdates.map .encode ++ [.finish none]) =
        .ok (events, last) ∧
      List.Forall₂ Arrives
        [(some "message", .text "Hello"),
         (none, .call ⟨"first", "plot", some [("at", .json (.array [.word 1, .word 2]))]⟩),
         (none, .call ⟨"second", "stop", none⟩),
         (none, .result ⟨"first", .json .null⟩),
         (none, Chat.encodeSnapshot (.object [("turns", .word 1)])),
         (none, Chat.encodeDelta [.replace "/turns" (.word 2)]),
         (none, .error "late" (some "timeout"))]
        (labelled (Inbound.run {} events).2) := by
  have expected :
      arrivals pointRegistry (labelled mixedUpdates) =
        [(some "message", .text "Hello"),
         (none, .call ⟨"first", "plot", some [("at", .json (.array [.word 1, .word 2]))]⟩),
         (none, .call ⟨"second", "stop", none⟩),
         (none, .result ⟨"first", .json .null⟩),
         (none, Chat.encodeSnapshot (.object [("turns", .word 1)])),
         (none, Chat.encodeDelta [.replace "/turns" (.word 2)]),
         (none, .error "late" (some "timeout"))] := by
    rfl
  obtain ⟨events, last, encoded⟩ := mixedUpdates_encoded
  refine ⟨events, last, encoded, ?_⟩
  rw [← expected]
  exact (contents_survive "thread" "run" pointRegistry {} mixedUpdates_sendable encoded).2

end AgentWire.Server

import AgentWire.Proofs.Client.Inbound
import AgentWire.Proofs.Client.InboundHistory

namespace AgentWire

/-!
# Tool calls whose arguments come in pieces

Between the start and the end of a tool call stand pieces of its arguments and events that
have nothing to do with what is open.  The latter tell what they tell when nothing is open;
the former only lengthen the text of the arguments, which is read at the end.  So the call
is the one that a single piece with the whole text gives.
-/

namespace EventBody

/-- The events that a machine takes alike whatever is open. -/
def isBystander : EventBody → Bool
  | .toolCallResult .. | .stateSnapshot _ | .stateDelta _ => true
  | _ => false

/-- What may stand within a tool call: pieces of its arguments, and bystanders. -/
def StandsWithin (callId : String) (body : EventBody) : Prop :=
  (∃ delta, body = .toolCallArgs callId delta) ∨ body.isBystander = true

end EventBody

namespace Client

open Chat (Payload Update)

/-- The arguments that a text stands for: those of an object, or none if it is blank or `null`. -/
def StandsForArguments (text : String) : Option (Dictionary Json) → Prop
  | none => Text.isBlankText text = true ∨ Json.Decoder.json.text text = .ok .null
  | some members =>
      Text.isBlankText text = false ∧ Json.Decoder.json.text text = .ok (.object members)

/-- A text is read as arguments exactly if it stands for them. -/
theorem parseArguments_eq_ok
    {text : String}
    {arguments : Option (Dictionary Json)} :
    parseArguments text = .ok arguments ↔ StandsForArguments text arguments := by
  cases blank : Text.isBlankText text with
  | true =>
      cases arguments <;>
        simp [parseArguments, StandsForArguments, blank]
  | false =>
      cases read : Json.Decoder.json.text text with
      | error refusal =>
          cases arguments <;>
            simp [parseArguments, StandsForArguments, blank, read]
      | ok document =>
          cases document <;>
            cases arguments <;>
              simp [parseArguments, StandsForArguments, blank, read]

/-- The pieces of the arguments come one behind the other. -/
theorem argumentsIn_cons (event : Event) (rest : List Event) :
    argumentsIn (event :: rest) = (argumentsPiece? event.body).getD "" ++ argumentsIn rest := by
  cases piece : argumentsPiece? event.body <;>
    simp [argumentsIn, piece]

namespace Inbound

/-- The machine with a tool call open whose arguments have come as far as a text. -/
def calling
    (machine : Inbound)
    (callId name : String)
    (parentId : Option String)
    (arguments : String) :
    Inbound :=
  { machine with phase := .call callId name parentId arguments }

/-- The update of a tool call that ends with some arguments. -/
def callUpdate
    (machine : Inbound)
    (ending : Event)
    (callId name : String)
    (parentId : Option String)
    (arguments : Option (Dictionary Json)) :
    Update :=
  let payloads := arguments.map fun members =>
    members.map fun (key, value) => (key, Payload.json value)
  { machine.update ending .assistant [.call ⟨callId, name, payloads⟩] with messageId := parentId }

section Pieces

variable
  {machine : Inbound}
  {callId name arguments : String}
  {parentId : Option String}
  {start event whole ending : Event}
  {between : List Event}

/-- A bystander leaves a machine as it is, and tells the same whatever is open. -/
theorem apply_bystander
    (machine : Inbound)
    (bystander : event.body.isBystander = true) :
    ∃ update,
      ∀ phase,
        ({ machine with phase } : Inbound).apply event = .ok ({ machine with phase }, update) := by
  refine ⟨(machine.apply event).toOption.bind (·.2), fun phase => ?_⟩
  obtain ⟨timestamp, rawEvent, number, body⟩ := event
  cases body with
  | toolCallResult messageId callId content role =>
      rfl
  | stateSnapshot snapshot =>
      cases snapshot with
      | none =>
          rfl
      | some document =>
          cases document <;>
            rfl
  | stateDelta delta =>
      cases delta <;>
        rfl
  | runStarted | runFinished | runError | textMessageStart | textMessageContent
  | textMessageEnd | toolCallStart | toolCallArgs | toolCallEnd =>
      cases bystander

/-- A tool call that starts where nothing is open has no arguments yet. -/
theorem apply_start
    (idle : machine.phase = .idle)
    (starts : start.body = .toolCallStart callId name parentId) :
    machine.apply start = .ok (machine.calling callId name parentId "", none) := by
  simp [apply, startCall, calling, starts, idle]

/-- A piece of the arguments of the open call comes behind the others. -/
theorem apply_piece
    {delta : String}
    (adds : event.body = .toolCallArgs callId delta) :
    (machine.calling callId name parentId arguments).apply event =
      .ok (machine.calling callId name parentId (arguments ++ delta), none) := by
  simp [apply, addArguments, calling, adds]

/-- An open call ends exactly if its text stands for arguments, which the call then has. -/
theorem apply_ending_iff
    (idle : machine.phase = .idle)
    (ends : ending.body = .toolCallEnd callId)
    {next : Inbound}
    {update? : Option Update} :
    (machine.calling callId name parentId arguments).apply ending = .ok (next, update?) ↔
      ∃ parsed,
        StandsForArguments arguments parsed ∧
          next = machine ∧
          update? = some (machine.callUpdate ending callId name parentId parsed) := by
  have closed : ({ machine with phase := .idle } : Inbound) = machine := by
    rw [← idle]
  simp only [apply, ends, endCall, calling, if_true, Json.bind_eq_ok, parseArguments_eq_ok,
    Except.ok.injEq, Prod.mk.injEq, closed]
  constructor
  · rintro ⟨parsed, reads, rfl, rfl⟩
    exact ⟨parsed, reads, rfl, rfl⟩
  · rintro ⟨parsed, reads, rfl, rfl⟩
    exact ⟨parsed, reads, rfl, rfl⟩

/--
Events within a tool call are taken: its text grows by their pieces, and they tell what the
bystanders among them tell.
-/
theorem follow_within
    (machine : Inbound)
    (name : String)
    (parentId : Option String)
    (arguments : String)
    (within : ∀ event ∈ between, event.body.StandsWithin callId) :
    ∃ asides,
      machine.follow (between.filter (·.body.isBystander)) = .ok (machine, asides) ∧
        (machine.calling callId name parentId arguments).follow between =
          .ok (machine.calling callId name parentId (arguments ++ argumentsIn between),
            asides) := by
  induction between generalizing arguments with
  | nil =>
      exact ⟨[], rfl, by simp⟩
  | cons event rest inductionHypothesis =>
      obtain ⟨first, others⟩ := List.forall_mem_cons.mp within
      rw [argumentsIn_cons, ← String.append_assoc]
      rcases first with ⟨delta, adds⟩ | bystander
      · obtain ⟨asides, alone, among⟩ := inductionHypothesis (arguments ++ delta) others
        refine ⟨asides, ?_, ?_⟩
        · rw [List.filter_cons, adds, if_neg (by simp [EventBody.isBystander]), alone]
        · rw [adds]
          exact follow_cons (apply_piece adds) among
      · obtain ⟨update?, alike⟩ := apply_bystander machine bystander
        obtain ⟨asides, alone, among⟩ := inductionHypothesis arguments others
        have silent : argumentsPiece? event.body = none := by
          cases body : event.body <;>
            simp_all [EventBody.isBystander, argumentsPiece?]
        refine ⟨update?.toList ++ asides, ?_, ?_⟩
        · rw [List.filter_cons, if_pos bystander]
          exact follow_cons (alike machine.phase) alone
        · rw [silent, Option.getD_none, String.append_empty]
          exact follow_cons (alike _) among

/--
A tool call is read as if the text of its arguments had come in one piece and nothing else
between its start and its end, which is taken or refused all the same.  The bystanders tell
what they tell to the idle machine.  The end is taken exactly if the text stands for
arguments; then the call has these, the name and the parent of its start, and the machine is
as it was before.
-/
theorem pieces_read_as_whole
    (idle : machine.phase = .idle)
    (starts : start.body = .toolCallStart callId name parentId)
    (within : ∀ event ∈ between, event.body.StandsWithin callId)
    (single : whole.body = .toolCallArgs callId (argumentsIn between))
    (ending : Event) :
    let opened := machine.calling callId name parentId (argumentsIn between)
    ∃ asides,
      machine.follow (between.filter (·.body.isBystander)) = .ok (machine, asides) ∧
        machine.follow (start :: between) = .ok (opened, asides) ∧
        machine.follow [start, whole] = .ok (opened, []) ∧
        machine.follow (start :: between ++ [ending]) =
          (machine.follow [start, whole, ending]).map
            (fun (last, updates) => (last, asides ++ updates)) ∧
        (ending.body = .toolCallEnd callId →
          ∀ next update?,
            opened.apply ending = .ok (next, update?) ↔
              ∃ parsed,
                StandsForArguments (argumentsIn between) parsed ∧
                  next = machine ∧
                  update? = some (machine.callUpdate ending callId name parentId parsed)) := by
  intro opened
  obtain ⟨asides, alone, among⟩ := follow_within machine name parentId "" within
  rw [String.empty_append] at among
  have pieces : machine.follow (start :: between) = .ok (opened, asides) :=
    follow_cons (apply_start idle starts) among
  have once : machine.follow [start, whole] = .ok (opened, []) := by
    have added :
        (machine.calling callId name parentId "").follow [whole] =
          .ok (machine.calling callId name parentId ("" ++ argumentsIn between), []) :=
      follow_singleton (apply_piece single)
    rw [String.empty_append] at added
    exact follow_cons (apply_start idle starts) added
  refine ⟨asides, alone, pieces, once, ?_, fun ends next update? => apply_ending_iff idle ends⟩
  have onceMore :
      machine.follow [start, whole, ending] =
        (opened.follow [ending]).map fun (last, more) => (last, [] ++ more) :=
    follow_append_eq once [ending]
  rw [follow_append_eq pieces, onceMore]
  cases opened.follow [ending] <;>
    rfl

end Pieces

namespace Interrupted

/-- A machine that knows its run. -/
def machine : Inbound :=
  ⟨.idle, some "r", some "t"⟩

def start : Event :=
  EventBody.toEvent (.toolCallStart "c" "look" (some "m"))

/-- Three pieces of arguments, the second one empty, with a result and a state in between. -/
def between : List Event :=
  List.map EventBody.toEvent
    [.toolCallArgs "c" "\x7b\"far\"",
     .toolCallResult "m0" "c0" "false" none,
     .toolCallArgs "c" "",
     .stateSnapshot (some (.object [])),
     .toolCallArgs "c" ":true\x7d"]

def whole : Event :=
  EventBody.toEvent (.toolCallArgs "c" "\x7b\"far\":true\x7d")

def ending : Event :=
  EventBody.toEvent (.toolCallEnd "c")

theorem idle : machine.phase = .idle :=
  rfl

theorem starts : start.body = .toolCallStart "c" "look" (some "m") :=
  rfl

theorem within : ∀ event ∈ between, event.body.StandsWithin "c" := by
  simp [between, EventBody.toEvent, EventBody.StandsWithin, EventBody.isBystander]

theorem single : whole.body = .toolCallArgs "c" (argumentsIn between) := by
  decide +kernel

/-- What the result and the state tell. -/
def asides : List Update :=
  (machine.run (between.filter (·.body.isBystander))).2

theorem reads :
    StandsForArguments (argumentsIn between) (some [("far", .bool true)]) :=
  ⟨by decide +kernel, Json.eq_ok_of_toOption (by decide +kernel)⟩

end Interrupted

/-- Pieces of arguments with a result and a state in between them. -/
theorem pieces_read_as_whole_interrupted :
    Interrupted.machine.phase = .idle ∧
      (∀ event ∈ Interrupted.between, event.body.StandsWithin "c") ∧
      Interrupted.asides.length = 2 ∧
      Interrupted.machine.follow
          (Interrupted.start :: Interrupted.between ++ [Interrupted.ending]) =
        .ok
          (Interrupted.machine,
            Interrupted.asides ++
              [Interrupted.machine.callUpdate Interrupted.ending "c" "look" (some "m")
                (some [("far", .bool true)])]) := by
  obtain ⟨asides, alone, pieces, -, -, ends⟩ :=
    pieces_read_as_whole Interrupted.idle Interrupted.starts Interrupted.within
      Interrupted.single Interrupted.ending
  have same : asides = Interrupted.asides := by
    rw [Interrupted.asides, run_of_follow alone]
  have ended := (ends rfl _ _).mpr ⟨_, Interrupted.reads, rfl, rfl⟩
  refine ⟨rfl, Interrupted.within, by decide +kernel, ?_⟩
  rw [← same]
  exact follow_append pieces (follow_singleton ended)

end Inbound

end Client

end AgentWire

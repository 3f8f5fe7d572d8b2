import AgentWire.Proofs.Event
import AgentWire.Proofs.Json.Extent

namespace AgentWire

/-!
# Events survive their text

An event that was read from a text is nested no deeper than the text may be, and has
doubles only of the text.  So what it is written as can be read, and gives the event again.
-/

open Json (Decoder Draft Parts Route Schema)

variable
  {whole : Prop}
  {levels : Nat}
  {route : Route}
  {draft : Draft}

/-- An operation reaches no deeper than the document that it was read from. -/
theorem PatchOperation.within_of_decode
    {operation : PatchOperation}
    (decoded : decode route draft = .ok operation)
    (holds : draft.Holds whole levels) :
    operation.encode.Within whole levels := by
  obtain ⟨⟨child, below⟩, value⟩ := readFrom_of_decode decoded
  obtain ⟨inner, rfl, -⟩ := holds.child below
  have carried :
      ∀ present, operation.value? = some present → present.Within whole inner := by
    intro present given
    obtain ⟨child, below, read⟩ := value present given
    obtain ⟨other, same, held⟩ := holds.child below
    cases same
    exact held.read (fun _ => Route.admits_buffer) read
  refine ⟨depth_encode_le fun present given => (carried present given).shallow, fun asked => ?_⟩
  exact wholeNumbers_encode fun present given => (carried present given).wholeNumbers asked

/-- A patch that was decoded is no deeper than what it was decoded from. -/
theorem Patch.within_of_decode
    {patch : Patch}
    (decoded : decode route draft = .ok patch)
    (holds : draft.Holds whole levels) :
    (encode patch).Within whole levels := by
  obtain ⟨inner, drafts, rfl, -, read⟩ := Decoder.list_eq_ok.mp decoded
  obtain ⟨inside, rfl, items⟩ := holds.items
  refine Json.within_array.mpr ⟨inside, rfl, fun item among => ?_⟩
  obtain ⟨operation, member, rfl⟩ := List.mem_map.mp among
  obtain ⟨source, below, read⟩ := Json.exists_left_of_forall₂ read operation member
  exact PatchOperation.within_of_decode read (items source below)

/-- A body whose documents have no more than some levels. -/
def EventBody.Within
    (whole : Prop)
    (levels : Nat) :
    EventBody → Prop
  | .runFinished _ _ result => ∀ present, result = some present → present.Within whole levels
  | .stateSnapshot snapshot => ∀ present, snapshot = some present → present.Within whole levels
  | .stateDelta delta => ∀ patch, delta = some patch → (Patch.encode patch).Within whole levels
  | _ => True

namespace Event

section Members

/-- A member that is there is within the levels of its document. -/
theorem within_member?
    {α : Type}
    {value : Option α}
    {encode : α → Json}
    (name : String)
    (within : ∀ present, value = some present → (encode present).Within whole levels) :
    ∀ member ∈ Json.member? name value encode, member.2.Within whole levels := by
  cases value with
  | none => simp [Json.member?]
  | some present =>
      intro member single
      obtain rfl := List.mem_singleton.mp single
      exact within present rfl

/-- A value or null is within the levels of the value. -/
theorem within_orNull
    {α : Type}
    {value : Option α}
    {encode : α → Json}
    (within : ∀ present, value = some present → (encode present).Within whole levels) :
    (Json.orNull value encode).Within whole levels := by
  cases value with
  | none => exact ⟨Nat.zero_le levels, fun _ => rfl⟩
  | some present => exact within present rfl

/-- The members of a body are within the levels of its documents. -/
theorem within_bodyMembers
    {body : EventBody}
    (within : body.Within whole levels) :
    ∀ member ∈ bodyMembers body, member.2.Within whole levels := by
  have text (value : String) : (Json.string value).Within whole levels :=
    ⟨Nat.zero_le levels, fun _ => rfl⟩
  have texts (value : Option String) (name : String) :
      ∀ member ∈ Json.member? name value .string, member.2.Within whole levels :=
    within_member? name fun present _ => text present
  cases body with
  | runFinished threadId runId result =>
      exact List.forall_mem_cons.mpr ⟨text threadId,
        List.forall_mem_cons.mpr ⟨text runId, within_member? "result" within⟩⟩
  | stateSnapshot snapshot =>
      exact List.forall_mem_singleton.mpr (within_orNull within)
  | stateDelta delta =>
      exact List.forall_mem_singleton.mpr (within_orNull within)
  | runError message code =>
      exact List.forall_mem_cons.mpr ⟨text message, texts code "code"⟩
  | toolCallStart callId name parentId =>
      exact List.forall_mem_cons.mpr ⟨text callId,
        List.forall_mem_cons.mpr ⟨text name, texts parentId "parentMessageId"⟩⟩
  | toolCallResult messageId callId content role =>
      exact List.forall_mem_cons.mpr ⟨text messageId,
        List.forall_mem_cons.mpr ⟨text callId,
        List.forall_mem_cons.mpr ⟨text content, texts role "role"⟩⟩⟩
  | _ => simp [bodyMembers, text]

/-- An event has one level more than its documents. -/
theorem within_encode
    {event : Event}
    (rawEvent : ∀ present, event.rawEvent = some present → present.Within whole levels)
    (body : event.body.Within whole levels) :
    event.encode.Within whole (levels + 1) := by
  have flat (document : Json) (flat : document.depth = 0) (none : document.wholeNumbers = true) :
      document.Within whole levels :=
    ⟨flat ▸ Nat.zero_le levels, fun _ => none⟩
  rw [encode_eq]
  refine Json.within_object.mpr ⟨levels, rfl, ?_⟩
  refine List.forall_mem_cons.mpr ⟨flat _ rfl rfl, fun member among => ?_⟩
  rcases List.mem_append.mp among with among | last
  · rcases List.mem_append.mp among with among | number
    · rcases List.mem_append.mp among with time | raw
      · exact within_member? "timestamp" (fun _ _ => flat _ rfl rfl) member time
      · exact within_member? "rawEvent" rawEvent member raw
    · exact within_member? "sequenceNumber" (fun _ _ => flat _ rfl rfl) member number
  · exact within_bodyMembers body member last

end Members

section Decoded

variable
  {kind : EventKind}
  {parts : Parts}
  {event : Event}

/-- A document that was read from a part is within its levels. -/
theorem within_of_optional
    {name : String}
    {document : Option Json}
    (held : ∀ part ∈ parts.members, part.2.Holds whole levels)
    (free : ∀ levels, parts.route.Admits levels)
    (read : parts.optional name Decoder.json = .ok document) :
    ∀ present, document = some present → present.Within whole levels := by
  rintro present rfl
  obtain ⟨draft, noted, -, read⟩ := Parts.optional_eq_some read
  exact (held _ noted).read free read

/-- A body that was read from parts is within their levels. -/
theorem within_of_bodyOf
    {body : EventBody}
    (held : ∀ part ∈ parts.members, part.2.Holds whole levels)
    (free : ∀ levels, parts.route.Admits levels)
    (read : bodyOf kind parts = .ok body) :
    body.Within whole levels := by
  cases kind with
  | runFinished =>
      simp only [bodyOf, Json.bind_eq_ok] at read
      obtain ⟨threadId, -, runId, -, result, read, made⟩ := read
      cases made
      exact within_of_optional held free read
  | stateSnapshot =>
      simp only [bodyOf, Json.bind_eq_ok] at read
      obtain ⟨snapshot, read, made⟩ := read
      cases made
      exact within_of_optional held free read
  | stateDelta =>
      simp only [bodyOf, Json.bind_eq_ok] at read
      obtain ⟨delta, read, made⟩ := read
      cases made
      rintro patch rfl
      obtain ⟨draft, noted, -, decoded⟩ := Parts.optional_eq_some read
      exact Patch.within_of_decode decoded (held _ noted)
  | _ => cases body <;> simp_all [bodyOf, Json.bind_eq_ok, EventBody.Within]

/-- An event reaches no deeper than the document that it was read from. -/
theorem within_of_decodeAs
    {document : Json}
    (decoded : (decodeAs kind).tree document = .ok event)
    (canonical : document.canonical = true)
    (within : document.Within whole (levels + 1)) :
    event.encode.Within whole (levels + 1) := by
  simp only [Decoder.tree, decodeAs, ofParts, Json.bind_eq_ok] at decoded
  obtain ⟨parts, found, timestamp, -, rawEvent, rawRead, number, -, body, bodyRead, made⟩ := decoded
  cases made
  have holds : (Draft.ofJson document).Holds whole (levels + 1) := ⟨document, rfl, canonical, within⟩
  have held : ∀ part ∈ parts.members, part.2.Holds whole levels := by
    intro part noted
    obtain ⟨inner, same, held⟩ := holds.child (Schema.child_of_parts found part noted)
    cases same
    exact held
  have free : ∀ levels, parts.route.Admits levels := by
    rw [Schema.route_of_parts rfl found]
    exact fun _ => Route.admits_tree
  exact within_encode (within_of_optional held free rawRead) (within_of_bodyOf held free bodyRead)

/-- An event that was read from a text is nested no deeper, and has doubles only of the text. -/
theorem within_of_ofText
    {text : String}
    (decoded : ofText text = .ok event) :
    event.encode.Within ((Json.readText text).root.wholeNumbers = true) Route.deepest := by
  obtain ⟨document, read, decoded⟩ := ofText_eq_ok.mp decoded
  obtain ⟨kind, -, decoded⟩ := ofDocument_eq_ok.mp decoded
  have root := (Decoder.text_eq_ok.mp read).1
  exact within_of_decodeAs decoded (Draft.canonical_of_document _ root)
    (Draft.within_of_document _ root)

end Decoded

/--
An event is read back from its text.  Whatever text an event was read from, its documents are
canonical and not null, and it can be nested no deeper than a text may be; so it is read back
from its own text as well, unless there were doubles.
-/
theorem read_back :
    (∀ event : Event, event.Legible → ofText event.text = .ok event) ∧
      ∀ (text : String) (event : Event), ofText text = .ok event →
        event.Canonical ∧ event.encode.depth ≤ Route.deepest ∧
          ((Json.readText text).root.wholeNumbers = true → ofText event.text = .ok event) := by
  refine ⟨fun event legible => ofText_text legible, fun text event decoded => ?_⟩
  have canonical := canonical_of_ofText decoded
  have within := within_of_ofText decoded
  refine ⟨canonical, within.shallow, fun whole => ?_⟩
  exact ofText_text ⟨canonical, within.wholeNumbers whole, within.shallow⟩

/-- The end of a run, with all that the head of an event can hold. -/
def headed : Event :=
  ⟨some (-5), some (.object [("\u00e9\n", .array [.null])]), some 7, .runFinished "t" "r" none⟩

/-- A state delta whose operation comes as an array, and is written as an object. -/
def arrayForm : String :=
  "\x7b\"delta\":[[\"add\",\"/x\",null]],\"type\":\"STATE_DELTA\"\x7d"

/-- The event of that text. -/
def ofArrayForm : Event :=
  (EventBody.stateDelta (some [.add "/x" .null])).toEvent

/-- An event with a head, and one that comes as an array and is written as an object. -/
theorem read_back_headed_and_ofArrayForm :
    (headed.Legible ∧ ofText headed.text = .ok headed) ∧
      ofText arrayForm = .ok ofArrayForm ∧ ofArrayForm.text ≠ arrayForm ∧
        (Json.readText arrayForm).root.wholeNumbers = true ∧
          ofText ofArrayForm.text = .ok ofArrayForm := by
  have legible : headed.Legible := by
    refine ⟨⟨?_, ?_⟩, rfl, by decide⟩
    · rintro present ⟨⟩
      exact ⟨by decide +kernel, by simp⟩
    · rintro present ⟨⟩
  have decoded : ofText arrayForm = .ok ofArrayForm :=
    ofText_eq_ok_of_toOption (by decide +kernel)
  have whole : (Json.readText arrayForm).root.wholeNumbers = true := by decide +kernel
  refine ⟨⟨legible, read_back.1 headed legible⟩, decoded, by decide +kernel, whole, ?_⟩
  exact (read_back.2 arrayForm ofArrayForm decoded).2.2 whole

end Event

end AgentWire

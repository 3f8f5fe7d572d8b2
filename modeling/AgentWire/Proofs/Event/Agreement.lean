import AgentWire.Proofs.Event
import AgentWire.Proofs.Json.Agreement

namespace AgentWire

/-!
# Both decoders give the same event

One decoder walks the text and sets its members aside until it knows the kind; the other reads
a document and looks the kind up in it.  They agree on all texts of an object that names no
member twice, as long as the operations of a state delta name themselves.
-/

open Json (Decoder Draft Parts Reading Route Schema)

namespace PatchOperation

variable
  {route : Route}
  {name : String}
  {named : List (String × Draft)}
  {documents : List (String × Json)}

/-- An operation with a value is decoded alike on both ways. -/
theorem same_decodeValue
    {title : String}
    (make : String → Json → PatchOperation)
    (agree : (valueSchema title).Matches .buffer named documents) :
    (decodeValue title make (.object (Draft.keyed named) none)).Same
      (decodeValue title make (.ofJson (.object documents))) :=
  agree.same fun _ _ alike _ _ =>
    (alike.required Decoder.flat_string.agreesAt).bind fun _ =>
      (alike.required (Decoder.agreesAt_json alike.free)).bind fun _ => .of_eq rfl

/-- An operation with a source is decoded alike on both ways. -/
theorem same_decodeSource
    {title : String}
    (make : String → String → PatchOperation)
    (agree : (sourceSchema title).Matches .buffer named documents) :
    (decodeSource title make (.object (Draft.keyed named) none)).Same
      (decodeSource title make (.ofJson (.object documents))) :=
  agree.same fun _ _ alike _ _ =>
    (alike.required Decoder.flat_string.agreesAt).bind fun _ =>
      (alike.required Decoder.flat_string.agreesAt).bind fun _ => .of_eq rfl

/-- A removal is decoded alike on both ways. -/
theorem same_decodeRemove (agree : removeSchema.Matches .buffer named documents) :
    (decodeRemove (.object (Draft.keyed named) none)).Same
      (decodeRemove (.ofJson (.object documents))) :=
  agree.same fun _ _ alike _ _ =>
    (alike.required Decoder.flat_string.agreesAt).bind fun _ => .of_eq rfl

section Displayed

variable (displays : Draft.Displays named documents)

include displays

/-- Records of these members match, as long as they do not know the name of the operation. -/
theorem matches_parts
    {schema : Schema}
    (unknown : schema.knows "op" = false)
    (checked : ∀ field ∈ schema.fields, field.check.AgreesAt .buffer named field.name) :
    schema.Matches .buffer
      (named.filter (·.1 != "op")) (documents.filter (·.1 != "op")) := by
  have known (name : String) (knows : schema.knows name = true) : (name != "op") = true :=
    bne_iff_ne.mpr (Schema.ne_of_knows unknown knows)
  exact Schema.matches_of_displays (· != "op") (· != "op") rfl (fun _ => Route.admits_buffer)
    displays (fun name knows => ⟨known name knows, known name knows⟩) checked

/-- The parts of an operation that is named are decoded alike on both ways. -/
theorem same_decodeParts (name : String) :
    (decodeParts name (.object (Draft.keyed (named.filter (·.1 != "op"))) none)).Same
      (decodeParts name (.ofJson (.object (documents.filter (·.1 != "op"))))) := by
  have string (name : String) : Decoder.string.check.AgreesAt .buffer named name :=
    Decoder.flat_string.agreesAt.check
  have json (name : String) : Decoder.json.check.AgreesAt .buffer named name :=
    (Decoder.agreesAt_json fun _ => Route.admits_buffer).check
  have value (title : String) (make : String → Json → PatchOperation) :=
    same_decodeValue make <| matches_parts displays (rfl : (valueSchema title).knows "op" = false) <|
      List.forall_mem_cons.mpr ⟨string "path", List.forall_mem_singleton.mpr (json "value")⟩
  have source (title : String) (make : String → String → PatchOperation) :=
    same_decodeSource make <| matches_parts displays (rfl : (sourceSchema title).knows "op" = false) <|
      List.forall_mem_cons.mpr ⟨string "from", List.forall_mem_singleton.mpr (string "path")⟩
  have remove :=
    same_decodeRemove <| matches_parts displays (rfl : removeSchema.knows "op" = false) <|
      List.forall_mem_singleton.mpr (string "path")
  unfold decodeParts
  split
  · exact value "Add" .add
  · exact remove
  · exact value "Replace" .replace
  · exact source "Move" .move
  · exact source "Copy" .copy
  · exact value "Test" .test

end Displayed

/-- Of an object that names each member once, the name of the operation is taken first. -/
theorem decode_keyed
    {inner : Route}
    {operation : PatchOperation}
    (entered : route.enter = .ok inner)
    (different : (named.map (·.1)).Nodup)
    (readable : ∀ member ∈ named, ∃ document, Decoder.json inner member.2 = .ok document)
    (called : named.lookup "op" = some (.string name)) :
    decode route (.object (Draft.keyed named) none) = .ok operation ↔
      name ∈ names ∧
        decodeParts name (.object (Draft.keyed (named.filter (·.1 != "op"))) none) =
          .ok operation := by
  rw [decode, Json.bind_eq_ok]
  constructor
  · rintro ⟨⟨variant, rest⟩, tagged, read⟩
    obtain ⟨⟨draft, found, chosen⟩, rfl⟩ :=
      (Decoder.tagged_keyed "PatchOperation" entered different readable).mp tagged
    rw [called] at found
    cases found
    obtain ⟨among, rfl⟩ := Decoder.variantName_string.mp chosen
    exact ⟨among, Reading.whole_eq_ok.mp read⟩
  · rintro ⟨among, read⟩
    refine ⟨(name, _), ?_, Reading.whole_eq_ok.mpr read⟩
    refine (Decoder.tagged_keyed "PatchOperation" entered different readable).mpr ⟨?_, rfl⟩
    exact ⟨_, called, Decoder.variantName_string.mpr ⟨among, rfl⟩⟩

/-- An operation that names itself is decoded alike on both ways. -/
theorem agrees_decode
    {draft : Draft}
    {document : Json}
    (entered : route.enter = .ok route)
    (free : ∀ levels, route.Admits levels)
    (shows : draft.Shows document)
    (distinct : draft.distinct = true)
    (called : draft.member? "op" = some (.string name)) :
    decode.Agrees route draft document := by
  cases draft with
  | object members stop =>
      obtain ⟨rfl, inner, named, documents, ⟨⟩, rfl, rfl, displays, readable⟩ :=
        Draft.displays_of_document shows distinct
      have calledFirst : named.lookup "op" = some (.string name) := by
        rwa [Draft.member?, Draft.lookup_keyed] at called
      have calledSecond : (Json.noted documents).lookup "op" = some (.string name) := by
        rw [Json.lookup_noted, displays.lookup_string_iff.mp calledFirst]
        rfl
      have sorted : ((Json.noted documents).map (·.1)).Nodup :=
        Json.names_noted ▸ displays.sorted
      have readableSecond :
          ∀ member ∈ Json.noted documents, ∃ document, Decoder.json route member.2 = .ok document := by
        intro member inside
        obtain ⟨source, -, rfl⟩ := List.mem_map.mp inside
        exact ⟨_, Draft.document_ofJson source.2 (free _)⟩
      -- On both sides the operation is set apart, and the other members are decoded by its name.
      intro operation
      rw [decode_keyed rfl displays.different readable calledFirst, Draft.ofJson,
        ← Draft.keyed_noted, decode_keyed entered sorted readableSecond calledSecond]
      refine and_congr_right fun _ => ?_
      have kept := Json.filter_noted documents (· != "op")
      have same := same_decodeParts displays name operation
      rwa [Draft.ofJson, ← Draft.keyed_noted, ← kept] at same
  | null | bool | number | string | array | spoilt | broken => cases called

end PatchOperation

namespace Event

variable
  {route : Route}
  {kind : EventKind}
  {named : List (String × Draft)}
  {documents : List (String × Json)}

/-- A draft whose items, if it is an array, are objects that name an operation. -/
def NamesOperations (draft : Draft) : Prop :=
  ∀ items stop, draft = .array items stop →
    ∀ item ∈ items, ∃ name, item.member? "op" = some (.string name)

/-- A patch whose operations name themselves is decoded alike on both ways. -/
theorem agrees_patch
    {draft : Draft}
    {document : Json}
    (entered : route.enter = .ok route)
    (free : ∀ levels, route.Admits levels)
    (shows : draft.Shows document)
    (distinct : draft.distinct = true)
    (operations : NamesOperations draft) :
    Patch.decode.Agrees route draft document := by
  refine Decoder.agrees_list entered shows ?_
  rintro items stop rfl item among value shown
  obtain ⟨name, called⟩ := operations items stop rfl item among
  rw [Draft.distinct, Draft.distinctItems_iff] at distinct
  exact PatchOperation.agrees_decode entered free shown (distinct item among) called

/-- The event is found in parts that are alike. -/
theorem same_ofParts
    {parts other : Parts}
    (alike : parts.Alike other)
    (delta : kind = .stateDelta → Patch.decode.AgreesAt other.route parts.members "delta") :
    (ofParts kind parts).Same (ofParts kind other) := by
  have text (name : String) :
      (parts.required name Decoder.string).Same (other.required name Decoder.string) :=
    alike.required Decoder.flat_string.agreesAt
  have textOrNone (name : String) :
      (parts.optional name Decoder.string).Same (other.optional name Decoder.string) :=
    alike.optional Decoder.flat_string.agreesAt
  have json (name : String) :
      (parts.optional name Decoder.json).Same (other.optional name Decoder.json) :=
    alike.optional (Decoder.agreesAt_json alike.free)
  have body : (bodyOf kind parts).Same (bodyOf kind other) := by
    cases kind with
    | runStarted | textMessageStart | textMessageContent | toolCallArgs =>
        exact (text _).bind fun _ => (text _).bind fun _ => .of_eq rfl
    | textMessageEnd | toolCallEnd => exact (text _).bind fun _ => .of_eq rfl
    | runFinished =>
        exact (text _).bind fun _ => (text _).bind fun _ => (json _).bind fun _ => .of_eq rfl
    | runError => exact (text _).bind fun _ => (textOrNone _).bind fun _ => .of_eq rfl
    | toolCallStart =>
        exact (text _).bind fun _ => (text _).bind fun _ => (textOrNone _).bind fun _ => .of_eq rfl
    | toolCallResult =>
        exact (text _).bind fun _ => (text _).bind fun _ => (text _).bind fun _ =>
          (textOrNone _).bind fun _ => .of_eq rfl
    | stateSnapshot => exact (json _).bind fun _ => .of_eq rfl
    | stateDelta => exact (alike.optional (delta rfl)).bind fun _ => .of_eq rfl
  exact (alike.optional Decoder.flat_signed.agreesAt).bind fun _ => (json "rawEvent").bind fun _ =>
    (alike.optional Decoder.flat_word.agreesAt).bind fun _ => body.bind fun _ => .of_eq rfl

/-- What is checked of the members of an event does not tell a draft from its document. -/
theorem checked_alike
    (free : ∀ levels, route.Admits levels)
    (delta : kind = .stateDelta → Patch.decode.AgreesAt route named "delta") :
    ∀ field ∈ kind.schema.fields, field.check.AgreesAt route named field.name := by
  have text (name : String) : Decoder.string.check.AgreesAt route named name :=
    Decoder.flat_string.agreesAt.check
  have textOrNone (name : String) :
      (Decoder.optional Decoder.string).check.AgreesAt route named name :=
    Decoder.flat_string.agreesAt.optional.check
  have json (name : String) : (Decoder.optional Decoder.json).check.AgreesAt route named name :=
    (Decoder.agreesAt_json free).optional.check
  have head : ∀ field ∈ EventKind.headFields, field.check.AgreesAt route named field.name :=
    List.forall_mem_cons.mpr ⟨Decoder.flat_signed.agreesAt.optional.check,
      List.forall_mem_cons.mpr ⟨json "rawEvent",
      List.forall_mem_singleton.mpr Decoder.flat_word.agreesAt.optional.check⟩⟩
  refine List.forall_mem_append.mpr ⟨head, ?_⟩
  cases kind with
  | runStarted | textMessageStart | textMessageContent | toolCallArgs =>
      exact List.forall_mem_cons.mpr ⟨text _, List.forall_mem_singleton.mpr (text _)⟩
  | textMessageEnd | toolCallEnd => exact List.forall_mem_singleton.mpr (text _)
  | runFinished =>
      exact List.forall_mem_cons.mpr ⟨text _,
        List.forall_mem_cons.mpr ⟨text _, List.forall_mem_singleton.mpr (json _)⟩⟩
  | runError => exact List.forall_mem_cons.mpr ⟨text _, List.forall_mem_singleton.mpr (textOrNone _)⟩
  | toolCallStart =>
      exact List.forall_mem_cons.mpr ⟨text _,
        List.forall_mem_cons.mpr ⟨text _, List.forall_mem_singleton.mpr (textOrNone _)⟩⟩
  | toolCallResult =>
      exact List.forall_mem_cons.mpr ⟨text _,
        List.forall_mem_cons.mpr ⟨text _,
        List.forall_mem_cons.mpr ⟨text _, List.forall_mem_singleton.mpr (textOrNone _)⟩⟩⟩
  | stateSnapshot => exact List.forall_mem_singleton.mpr (json _)
  | stateDelta => exact List.forall_mem_singleton.mpr (delta rfl).optional.check

/-- The members of an event are decoded alike, whether set aside or in a document. -/
theorem same_decodeAs
    (displays : Draft.Displays named documents)
    (delta : kind = .stateDelta → Patch.decode.AgreesAt .tree named "delta") :
    (decodeAs kind .buffer (.object (Draft.keyed (named.filter (·.1 != "type"))) none)).Same
      ((decodeAs kind).tree (.object documents)) := by
  have known (name : String) (knows : kind.schema.knows name = true) : (name != "type") = true :=
    bne_iff_ne.mpr (Schema.ne_of_knows (type_unknown kind) knows)
  -- Only the walk over the text sets the kind aside; in the document it is passed over.
  have agree := Schema.matches_of_displays (· != "type") (fun _ => true) rfl
    (fun _ => Route.admits_tree) displays (fun name knows => ⟨known name knows, rfl⟩)
    (checked_alike (fun _ => Route.admits_tree) delta)
  rw [List.filter_true] at agree
  refine agree.same fun parts other alike routed found => same_ofParts alike fun isDelta => ?_
  intro draft document given shows
  have kept := Json.lookup_of_filter (· != "type") (found "delta" draft given)
  rw [routed]
  exact delta isDelta draft document kept shows

/-- A text's event is among the members that are set aside for its kind. -/
theorem decode_keyed
    {event : Event}
    {levels inner : Nat}
    (entered : Route.enter (.text levels) = .ok (.text inner))
    (different : (named.map (·.1)).Nodup)
    (readable : ∀ member ∈ named, ∃ document, Decoder.json (.text inner) member.2 = .ok document) :
    decode (.text levels) (.object (Draft.keyed named) none) = .ok event ↔
      ∃ kind : EventKind,
        named.lookup "type" = some (.string kind.name) ∧
          decodeAs kind .buffer (.object (Draft.keyed (named.filter (·.1 != "type"))) none) =
            .ok event := by
  rw [decode, Json.bind_eq_ok]
  constructor
  · rintro ⟨⟨name, rest⟩, tagged, read⟩
    obtain ⟨⟨draft, found, chosen⟩, rfl⟩ :=
      (Decoder.tagged_keyed "Event" entered different readable).mp tagged
    obtain ⟨rfl, -⟩ := Decoder.variantName_text.mp chosen
    cases called : EventKind.ofName? name with
    | none =>
        simp only [called] at read
        cases read
    | some kind =>
        simp only [called, Reading.whole_eq_ok] at read
        obtain rfl := ofName?_eq_some.mp called
        exact ⟨kind, found, read⟩
  · rintro ⟨kind, found, read⟩
    refine ⟨(kind.name, .object (Draft.keyed (named.filter (·.1 != "type"))) none), ?_, ?_⟩
    · refine (Decoder.tagged_keyed "Event" entered different readable).mpr ⟨?_, rfl⟩
      exact ⟨_, found, Decoder.variantName_text.mpr ⟨rfl, name_mem_names kind⟩⟩
    · simp only [ofName?_name, read]
      rfl

/--
An object that names no member twice, at any level.  If it is a state delta, its operations
are objects that name themselves.
-/
structure Plain (root : Draft) : Prop where
  object : ∃ members stop, root = .object members stop
  distinct : root.distinct = true
  operations :
    root.member? "type" = some (.string EventKind.stateDelta.name) →
      ∀ delta, root.member? "delta" = some delta → NamesOperations delta

/-- What is read from the document of a text is what is decoded from the text itself. -/
theorem ofDocument_iff_decode
    {root : Draft}
    {document : Json}
    {event : Event}
    (plain : Plain root)
    (read : Decoder.json .wholeText root = .ok document) :
    ofDocument document = .ok event ↔ decode .wholeText root = .ok event := by
  obtain ⟨members, stop, rfl⟩ := plain.object
  obtain ⟨rfl, inner, named, documents, entered, rfl, rfl, displays, readable⟩ :=
    Draft.displays_of_document read plain.distinct
  cases entered
  rw [ofDocument_eq_ok, Route.wholeText, decode_keyed rfl displays.different readable]
  refine exists_congr fun kind => ?_
  rw [displays.lookup_string_iff]
  refine and_congr_right fun called => ?_
  refine (same_decodeAs displays (fun isDelta draft document found shows => ?_) event).symm
  have distinct := Draft.distinct_of_lookup plain.distinct found
  have type := displays.lookup_string_iff.mpr called
  refine agrees_patch rfl (fun _ => Route.admits_tree) shows distinct (plain.operations ?_ draft ?_)
  · rw [Draft.member?, Draft.lookup_keyed, type, isDelta]
  · rw [Draft.member?, Draft.lookup_keyed, found]

/-- Both decoders accept the same of these texts, and give the same event. -/
theorem ofText_iff_decode
    {text : String}
    (plain : Plain (Json.readText text).root)
    (event : Event) :
    ofText text = .ok event ↔ decode.text text = .ok event := by
  rw [ofText_eq_ok, Decoder.text_eq_ok]
  constructor
  · rintro ⟨document, read, decoded⟩
    obtain ⟨root, closed⟩ := Decoder.text_eq_ok.mp read
    exact ⟨(ofDocument_iff_decode plain root).mp decoded, closed⟩
  · rintro ⟨decoded, closed⟩
    obtain ⟨members, stop, object⟩ := plain.object
    -- All members are read before the kind is known, so the text is that of a document.
    have tagged := decoded
    rw [decode, Json.bind_eq_ok, object] at tagged
    obtain ⟨parts, tagged, -⟩ := tagged
    obtain ⟨document, read⟩ := Decoder.document_of_tagged tagged
    rw [← object] at read
    exact ⟨document, Decoder.text_eq_ok.mpr ⟨read, closed⟩,
      (ofDocument_iff_decode plain read).mpr decoded⟩

/-- A state delta whose members, and those of its operation, stand in no particular order. -/
def shuffled : Json :=
  .object [
    ("delta", .array [.object [("value", .null), ("op", .string "add"), ("path", .string "/x")]]),
    ("extra", .array []), ("type", .string "STATE_DELTA"), ("sequenceNumber", .word 7)]

theorem plain_shuffled : Plain (Json.readText shuffled.text).root := by
  rw [Json.readText_text (by decide)]
  refine ⟨⟨_, _, rfl⟩, by decide, ?_⟩
  rintro - delta ⟨⟩ items stop ⟨⟩ item among
  obtain rfl := List.mem_singleton.mp among
  exact ⟨"add", rfl⟩

/-- An event whose kind comes behind its other members. -/
theorem ofText_iff_decode_shuffled :
    Plain (Json.readText shuffled.text).root ∧
      ∃ event, ofText shuffled.text = .ok event ∧ decode.text shuffled.text = .ok event := by
  have decoded :
      ofText shuffled.text = .ok ⟨none, none, some 7, .stateDelta (some [.add "/x" .null])⟩ :=
    ofText_eq_ok_of_toOption (by decide +kernel)
  exact ⟨plain_shuffled, _, decoded, (ofText_iff_decode plain_shuffled _).mp decoded⟩

end Event

end AgentWire

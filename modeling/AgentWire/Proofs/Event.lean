import AgentWire.Event.Decoder
import AgentWire.Proofs.Patch

namespace AgentWire

/-!
# Written events are read back

An event whose documents are canonical, and not null where it has some, is decoded
from its wire form; every event that is decoded is of this kind.
-/

open Json (Decoder Draft Parts Route Schema)

namespace EventBody

/-- A body with canonical documents. -/
def Canonical : EventBody → Prop
  | .runFinished _ _ result => Json.Settled result
  | .stateSnapshot snapshot => Json.Settled snapshot
  | .stateDelta delta =>
      ∀ patch, delta = some patch →
        ∀ operation ∈ patch, ∀ value,
          operation.value? = some value → value.canonical = true
  | _ => True

end EventBody

namespace Event

/-- An event with canonical documents. -/
structure Canonical (event : Event) : Prop where
  rawEvent : Json.Settled event.rawEvent
  body : event.body.Canonical

section Decoded

variable
  {kind : EventKind}
  {parts : Parts}
  {route : Route}
  {draft : Draft}
  {event : Event}

/-- A body that was read holds canonical documents. -/
theorem canonical_of_bodyOf
    {body : EventBody}
    (read : bodyOf kind parts = .ok body) :
    body.Canonical := by
  cases kind with
  | runFinished =>
      simp only [bodyOf, Json.bind_eq_ok] at read
      obtain ⟨threadId, -, runId, -, result, read, made⟩ := read
      cases made
      exact Json.settled_of_optional read
  | stateSnapshot =>
      simp only [bodyOf, Json.bind_eq_ok] at read
      obtain ⟨snapshot, read, made⟩ := read
      cases made
      exact Json.settled_of_optional read
  | stateDelta =>
      simp only [bodyOf, Json.bind_eq_ok] at read
      obtain ⟨delta, read, made⟩ := read
      cases made
      rintro patch rfl
      obtain ⟨draft, -, -, decoded⟩ := Parts.optional_eq_some read
      exact Patch.canonical_of_decode decoded
  | _ => cases body <;> simp_all [bodyOf, Json.bind_eq_ok, EventBody.Canonical]

/-- An event that was decoded is canonical. -/
theorem canonical_of_decodeAs (decoded : decodeAs kind route draft = .ok event) :
    event.Canonical := by
  simp only [decodeAs, ofParts, Json.bind_eq_ok] at decoded
  obtain ⟨parts, -, timestamp, -, rawEvent, rawRead, number, -, body, bodyRead, made⟩ := decoded
  cases made
  exact ⟨Json.settled_of_optional rawRead, canonical_of_bodyOf bodyRead⟩

theorem ofName?_name (kind : EventKind) : EventKind.ofName? kind.name = some kind := by
  cases kind <;> rfl

/-- Only its own name leads to a kind. -/
theorem ofName?_eq_some {name : String} : EventKind.ofName? name = some kind ↔ name = kind.name := by
  constructor
  · intro named
    rw [EventKind.ofName?] at named
    have same := List.find?_some named
    exact (beq_iff_eq.mp same).symm
  · rintro rfl
    exact ofName?_name kind

/-- An event is in a document whose type names its kind. -/
theorem ofDocument_eq_ok {document : Json} :
    ofDocument document = .ok event ↔
      ∃ kind : EventKind,
        document.get? "type" = some (.string kind.name) ∧
          (decodeAs kind).tree document = .ok event := by
  constructor
  · intro decoded
    unfold ofDocument at decoded
    split at decoded
    · cases decoded
    · next name found =>
        obtain ⟨value, found, text⟩ := Option.bind_eq_some_iff.mp found
        split at decoded
        · cases decoded
        · next kind known =>
            obtain rfl := ofName?_eq_some.mp known
            split at decoded
            · next read =>
                cases decoded
                cases value <;> cases text
                exact ⟨kind, found, read⟩
            · cases decoded
  · rintro ⟨kind, found, read⟩
    simp only [ofDocument, found, Option.bind_some, Json.asString?, ofName?_name, read]

/-- An event is in a text whose document has it. -/
theorem ofText_eq_ok {text : String} :
    ofText text = .ok event ↔
      ∃ document, Decoder.json.text text = .ok document ∧ ofDocument document = .ok event := by
  unfold ofText
  split <;> simp_all

theorem ofText_eq_ok_of_toOption
    {text : String}
    (found : (ofText text).toOption = some event) :
    ofText text = .ok event :=
  Json.eq_ok_of_toOption found

/-- An event that was read from a text is canonical. -/
theorem canonical_of_ofText
    {text : String}
    (decoded : ofText text = .ok event) :
    event.Canonical := by
  obtain ⟨document, -, decoded⟩ := ofText_eq_ok.mp decoded
  obtain ⟨kind, -, decoded⟩ := ofDocument_eq_ok.mp decoded
  exact canonical_of_decodeAs decoded

end Decoded

section Encoded

/-- The members of an event's head. -/
def headMembers (event : Event) : List (String × Json) :=
  Json.member? "timestamp" event.timestamp .signed
    ++ Json.member? "rawEvent" event.rawEvent (·)
    ++ Json.member? "sequenceNumber" event.sequenceNumber .word

/-- The members of an event behind its kind. -/
def members (event : Event) : List (String × Json) :=
  event.headMembers ++ bodyMembers event.body

theorem encode_eq (event : Event) :
    event.encode = .object (("type", .string event.kind.name) :: event.members) := by
  simp [encode, members, headMembers]

/--
A route by which the members of an event come in a certain shape: canonical documents
as they are, and patches so that they can be decoded.
-/
structure Carries (route : Route) (shape : Json → Json) : Prop where
  entered : route.enter = .ok route
  admits : ∀ levels, route.Admits levels
  keeps : ∀ document, document.canonical = true → shape document = document
  patch :
    ∀ delta, (EventBody.stateDelta delta).Canonical →
      Patch.decode.Recovers route (fun patch => shape (Patch.encode patch)) delta

theorem carries_buffer : Carries .buffer (·) where
  entered := rfl
  admits _ := trivial
  keeps _ _ := rfl
  patch := by
    rintro delta canonical patch rfl
    refine ⟨?_, Patch.decode_encode (canonical patch rfl) trivial⟩
    simp [Patch.encode, Draft.ofJson]

/-- Through a free-form document, the operations of a patch come with their members sorted. -/
theorem carries_tree : Carries .tree Json.normal where
  entered := rfl
  admits _ := trivial
  keeps := Json.normal_of_canonical
  patch := by
    rintro delta canonical patch rfl
    refine ⟨?_, Patch.decode_normal (canonical patch rfl)⟩
    simp [Patch.encode, Json.normal, Draft.ofJson]

section Carried

variable
  {α : Type}
  {route : Route}
  {shape : Json → Json}
  {decoder : Decoder α}
  {encode : α → Json}
  {value : Option α}

/-- What a decoder recovers from canonical documents it recovers by the route as well. -/
theorem Carries.recovers
    (carries : Carries route shape)
    (canonical : ∀ present, value = some present → (encode present).canonical = true)
    (recovers : decoder.Recovers route encode value) :
    decoder.Recovers route (fun present => shape (encode present)) value := by
  intro present given
  simpa only [carries.keeps _ (canonical present given)] using recovers present given

theorem Carries.recovers_string
    (carries : Carries route shape)
    (value : Option String) :
    Decoder.string.Recovers route (fun text => shape (.string text)) value :=
  carries.recovers (fun _ _ => rfl) (Decoder.recovers_string value route)

theorem Carries.recovers_json
    {document : Option Json}
    (carries : Carries route shape)
    (settled : Json.Settled document) :
    Decoder.json.Recovers route shape document :=
  carries.recovers (fun present given => (settled present given).1)
    (Decoder.recovers_json settled fun present _ => carries.admits present.depth)

/-- A value that may be missing comes by the route as the value or as null. -/
theorem Carries.orNull
    (carries : Carries route shape)
    (value : Option α)
    (encode : α → Json) :
    shape (Json.orNull value encode) = Json.orNull value fun present => shape (encode present) := by
  cases value with
  | none => exact carries.keeps .null rfl
  | some present => rfl

/-- A text that a record needs. -/
theorem Carries.fits_string
    {schema : Schema}
    {field : Json.Field}
    {name : String}
    (carries : Carries route shape)
    (known : schema.fields.find? (·.name == name) = some field)
    (checked : field.check = Decoder.string.check)
    (text : String) :
    schema.Fits route (name, shape (.string text)) := by
  refine ⟨field, known, ?_⟩
  rw [carries.keeps _ rfl, checked]
  rfl

/-- A member that may be left out. -/
theorem fits_shaped
    {schema : Schema}
    {field : Json.Field}
    {name : String}
    (known : schema.fields.find? (·.name == name) = some field)
    (checked : field.check = (Decoder.optional decoder).check)
    (recovers : decoder.Recovers route (fun present => shape (encode present)) value) :
    ∀ member ∈ Json.member? name value encode,
      schema.Fits route (member.1, shape member.2) := by
  cases value with
  | none => simp [Json.member?]
  | some present =>
      intro member single
      obtain rfl := List.mem_singleton.mp single
      exact Schema.fits_member? known checked recovers _ List.mem_cons_self

end Carried

/-- The members of the head are named as its fields are, in their order. -/
theorem headMembers_names (event : Event) :
    (event.headMembers.map (·.1)).Sublist (EventKind.headFields.map (·.name)) := by
  rw [headMembers, List.map_append, List.map_append]
  exact ((Json.sublist_member? _ _ _).append (Json.sublist_member? _ _ _)).append (Json.sublist_member? _ _ _)

/-- The members of the body are named as the fields of its kind are, in their order. -/
theorem bodyMembers_names (body : EventBody) :
    ((bodyMembers body).map (·.1)).Sublist (body.kind.bodyFields.map (·.name)) := by
  cases body with
  | runFinished threadId runId result =>
      rw [bodyMembers, List.map_append]
      exact (List.Sublist.refl _).append (Json.sublist_member? _ _ _)
  | runError message code => exact (Json.sublist_member? "code" code .string).cons_cons "message"
  | toolCallStart callId name parentId =>
      rw [bodyMembers, List.map_append]
      exact (List.Sublist.refl _).append (Json.sublist_member? _ _ _)
  | toolCallResult messageId callId content role =>
      rw [bodyMembers, List.map_append]
      exact (List.Sublist.refl _).append (Json.sublist_member? _ _ _)
  | _ => exact List.Sublist.refl _

/-- No field of a kind has the name of another one, or that of the kind itself. -/
theorem schema_names (kind : EventKind) :
    ("type" :: kind.schema.fields.map (·.name)).Nodup := by
  cases kind <;>
    simp [EventKind.schema, EventKind.headFields, EventKind.bodyFields, Json.Field.nullable,
      Json.Field.required, Json.Field.omittable]

/-- No member of an event has the name of another one. -/
theorem members_names (event : Event) :
    ("type" :: event.members.map (·.1)).Nodup := by
  refine (schema_names event.kind).sublist (List.Sublist.cons_cons "type" ?_)
  rw [members, EventKind.schema, List.map_append, List.map_append]
  exact (headMembers_names event).append (bodyMembers_names event.body)

variable
  {event : Event}
  {route : Route}
  {shape : Json → Json}

/-- The members of the head pass the checks of the record. -/
theorem headMembers_fit
    (carries : Carries route shape)
    (canonical : event.Canonical) :
    ∀ member ∈ event.headMembers, event.kind.schema.Fits route (member.1, shape member.2) := by
  have timestamp := carries.recovers (fun _ _ => rfl) (Decoder.recovers_signed event.timestamp _)
  have number := carries.recovers (fun _ _ => rfl) (Decoder.recovers_word event.sequenceNumber _)
  intro member inside
  rcases List.mem_append.mp inside with inside | last
  · rcases List.mem_append.mp inside with time | raw
    · exact fits_shaped rfl rfl timestamp member time
    · exact fits_shaped rfl rfl (carries.recovers_json canonical.rawEvent) member raw
  · exact fits_shaped rfl rfl number member last

/-- The members of the body pass the checks of the record. -/
theorem bodyMembers_fit
    {body : EventBody}
    (carries : Carries route shape)
    (canonical : body.Canonical) :
    ∀ member ∈ bodyMembers body, body.kind.schema.Fits route (member.1, shape member.2) := by
  have nothing (kind : EventKind) :
      ∀ member ∈ ([] : List (String × Json)),
        kind.schema.Fits route (member.1, shape member.2) := by
    simp
  cases body with
  | runStarted threadId runId =>
      exact List.forall_mem_cons.mpr ⟨carries.fits_string rfl rfl threadId,
        List.forall_mem_cons.mpr ⟨carries.fits_string rfl rfl runId, nothing _⟩⟩
  | runFinished threadId runId result =>
      exact List.forall_mem_cons.mpr ⟨carries.fits_string rfl rfl threadId,
        List.forall_mem_cons.mpr ⟨carries.fits_string rfl rfl runId,
        fits_shaped rfl rfl (carries.recovers_json canonical)⟩⟩
  | stateSnapshot snapshot =>
      refine List.forall_mem_cons.mpr ⟨⟨_, rfl, ?_⟩, nothing _⟩
      rw [carries.orNull]
      exact Decoder.check_of_ok (carries.recovers_json canonical).optional_orNull
  | stateDelta delta =>
      refine List.forall_mem_cons.mpr ⟨⟨_, rfl, ?_⟩, nothing _⟩
      rw [carries.orNull]
      exact Decoder.check_of_ok (carries.patch delta canonical).optional_orNull
  | runError message code =>
      exact List.forall_mem_cons.mpr ⟨carries.fits_string rfl rfl message,
        fits_shaped rfl rfl (carries.recovers_string code)⟩
  | toolCallStart callId name parentId =>
      exact List.forall_mem_cons.mpr ⟨carries.fits_string rfl rfl callId,
        List.forall_mem_cons.mpr ⟨carries.fits_string rfl rfl name,
        fits_shaped rfl rfl (carries.recovers_string parentId)⟩⟩
  | toolCallResult messageId callId content role =>
      exact List.forall_mem_cons.mpr ⟨carries.fits_string rfl rfl messageId,
        List.forall_mem_cons.mpr ⟨carries.fits_string rfl rfl callId,
        List.forall_mem_cons.mpr ⟨carries.fits_string rfl rfl content,
        fits_shaped rfl rfl (carries.recovers_string role)⟩⟩⟩
  | textMessageEnd messageId =>
      exact List.forall_mem_cons.mpr ⟨carries.fits_string rfl rfl messageId, nothing _⟩
  | toolCallEnd callId =>
      exact List.forall_mem_cons.mpr ⟨carries.fits_string rfl rfl callId, nothing _⟩
  | textMessageStart first second | textMessageContent first second
  | toolCallArgs first second =>
      exact List.forall_mem_cons.mpr ⟨carries.fits_string rfl rfl first,
        List.forall_mem_cons.mpr ⟨carries.fits_string rfl rfl second, nothing _⟩⟩

/-- All members of an event pass the checks of the record. -/
theorem members_fit
    (carries : Carries route shape)
    (canonical : event.Canonical) :
    ∀ member ∈ event.members, event.kind.schema.Fits route (member.1, shape member.2) := by
  intro member inside
  rcases List.mem_append.mp inside with head | body
  · exact headMembers_fit carries canonical member head
  · exact bodyMembers_fit carries canonical.body member body

theorem lookup_timestamp (event : Event) :
    event.members.lookup "timestamp" = event.timestamp.map .signed := by
  have other : (bodyMembers event.body).lookup "timestamp" = none := by
    cases event.body <;> simp [bodyMembers, List.lookup_cons, Json.lookup_member?_of_ne]
  simp [members, headMembers, List.lookup_append, Json.lookup_member?_self, Json.lookup_member?_of_ne, other]

theorem lookup_rawEvent (event : Event) :
    event.members.lookup "rawEvent" = event.rawEvent := by
  have other : (bodyMembers event.body).lookup "rawEvent" = none := by
    cases event.body <;> simp [bodyMembers, List.lookup_cons, Json.lookup_member?_of_ne]
  simp [members, headMembers, List.lookup_append, Json.lookup_member?_self, Json.lookup_member?_of_ne, other]

theorem lookup_sequenceNumber (event : Event) :
    event.members.lookup "sequenceNumber" = event.sequenceNumber.map .word := by
  have other : (bodyMembers event.body).lookup "sequenceNumber" = none := by
    cases event.body <;> simp [bodyMembers, List.lookup_cons, Json.lookup_member?_of_ne]
  simp [members, headMembers, List.lookup_append, Json.lookup_member?_self, Json.lookup_member?_of_ne, other]

/-- Whatever is not in the head is found in the body. -/
theorem lookup_body
    (name : String)
    (other : name ∉ EventKind.headFields.map (·.name)) :
    event.members.lookup name = (bodyMembers event.body).lookup name := by
  simp only [EventKind.headFields, Json.Field.nullable, List.map_cons, List.map_nil,
    List.mem_cons, List.not_mem_nil, or_false, not_or] at other
  obtain ⟨noTime, noRaw, noNumber⟩ := other
  simp [members, headMembers, List.lookup_append, Json.lookup_member?_of_ne, noTime, noRaw, noNumber]

/-- Members in which those of an event are found as they come by some route. -/
def Presents
    (shape : Json → Json)
    (members : List (String × Json))
    (event : Event) :
    Prop :=
  ∀ name, event.kind.schema.knows name = true →
    members.lookup name = (event.members.lookup name).map shape

/-- The body of an event is read from members that present it. -/
theorem bodyOf_noted
    {members : List (String × Json)}
    (carries : Carries route shape)
    (canonical : event.Canonical)
    (presents : Presents shape members event) :
    bodyOf event.kind ⟨route, Json.noted members⟩ = .ok event.body := by
  have text name value
      (known : event.kind.schema.knows name = true)
      (found : event.members.lookup name = some (.string value)) :
      (⟨route, Json.noted members⟩ : Parts).required name Decoder.string = .ok value := by
    have given : members.lookup name = some (.string value) := by
      rw [presents name known, found, Option.map_some, carries.keeps _ rfl]
    exact Parts.required_noted given rfl
  have textOrNone name value
      (known : event.kind.schema.knows name = true)
      (found : event.members.lookup name = value.map .string) :
      (⟨route, Json.noted members⟩ : Parts).optional name Decoder.string = .ok value := by
    have given : members.lookup name = value.map fun text => shape (.string text) := by
      rw [presents name known, found, Option.map_map]
      rfl
    exact Parts.optional_member? given (carries.recovers_string value)
  -- What is not a text is a free-form document or a patch, and comes as the route carries it.
  have settled := canonical.body
  obtain ⟨timestamp, rawEvent, number, body⟩ := event
  cases body with
  | runStarted threadId runId =>
      have first := text "threadId" threadId rfl (lookup_body _ (by decide))
      have second := text "runId" runId rfl (lookup_body _ (by decide))
      simp only [kind, EventBody.kind, bodyOf, first, second, bind, Except.bind]
  | runFinished threadId runId result =>
      have first := text "threadId" threadId rfl (lookup_body _ (by decide))
      have second := text "runId" runId rfl (lookup_body _ (by decide))
      have own : (bodyMembers (.runFinished threadId runId result)).lookup "result" = result :=
        (Json.lookup_member?_self "result" result (·)).trans Option.map_id'
      have found : members.lookup "result" = result.map shape := by
        rw [presents "result" rfl, lookup_body _ (by decide), own]
      have third := Parts.optional_member? found (carries.recovers_json settled)
      simp only [kind, EventBody.kind, bodyOf, first, second, third, bind, Except.bind]
  | runError message code =>
      have first := text "message" message rfl (lookup_body _ (by decide))
      have second := textOrNone "code" code rfl
        ((lookup_body _ (by decide)).trans (Json.lookup_member?_self "code" code _))
      simp only [kind, EventBody.kind, bodyOf, first, second, bind, Except.bind]
  | textMessageStart messageId role =>
      have first := text "messageId" messageId rfl (lookup_body _ (by decide))
      have second := text "role" role rfl (lookup_body _ (by decide))
      simp only [kind, EventBody.kind, bodyOf, first, second, bind, Except.bind]
  | textMessageContent messageId delta =>
      have first := text "messageId" messageId rfl (lookup_body _ (by decide))
      have second := text "delta" delta rfl (lookup_body _ (by decide))
      simp only [kind, EventBody.kind, bodyOf, first, second, bind, Except.bind]
  | textMessageEnd messageId =>
      have first := text "messageId" messageId rfl (lookup_body _ (by decide))
      simp only [kind, EventBody.kind, bodyOf, first, bind, Except.bind]
  | toolCallStart callId name parentId =>
      have first := text "toolCallId" callId rfl (lookup_body _ (by decide))
      have second := text "toolCallName" name rfl (lookup_body _ (by decide))
      have third := textOrNone "parentMessageId" parentId rfl
        ((lookup_body _ (by decide)).trans (Json.lookup_member?_self "parentMessageId" parentId _))
      simp only [kind, EventBody.kind, bodyOf, first, second, third, bind, Except.bind]
  | toolCallArgs callId delta =>
      have first := text "toolCallId" callId rfl (lookup_body _ (by decide))
      have second := text "delta" delta rfl (lookup_body _ (by decide))
      simp only [kind, EventBody.kind, bodyOf, first, second, bind, Except.bind]
  | toolCallEnd callId =>
      have first := text "toolCallId" callId rfl (lookup_body _ (by decide))
      simp only [kind, EventBody.kind, bodyOf, first, bind, Except.bind]
  | toolCallResult messageId callId content role =>
      have first := text "messageId" messageId rfl (lookup_body _ (by decide))
      have second := text "toolCallId" callId rfl (lookup_body _ (by decide))
      have third := text "content" content rfl (lookup_body _ (by decide))
      have fourth := textOrNone "role" role rfl
        ((lookup_body _ (by decide)).trans (Json.lookup_member?_self "role" role _))
      simp only [kind, EventBody.kind, bodyOf, first, second, third, fourth, bind, Except.bind]
  | stateSnapshot snapshot =>
      have found : members.lookup "snapshot" = some (Json.orNull snapshot shape) := by
        rw [presents "snapshot" rfl, lookup_body _ (by decide), ← carries.orNull]
        rfl
      have first := Parts.optional_orNull found (carries.recovers_json settled)
      simp only [kind, EventBody.kind, bodyOf, first, bind, Except.bind]
  | stateDelta delta =>
      have found :
          members.lookup "delta" =
            some (Json.orNull delta fun patch => shape (Patch.encode patch)) := by
        rw [presents "delta" rfl, lookup_body _ (by decide), ← carries.orNull]
        rfl
      have first := Parts.optional_orNull found (carries.patch delta settled)
      simp only [kind, EventBody.kind, bodyOf, first, bind, Except.bind]

/-- An event is decoded from members in which its own are found. -/
theorem decodeAs_of_parts
    {draft : Draft}
    {members : List (String × Json)}
    (carries : Carries route shape)
    (canonical : event.Canonical)
    (parts : event.kind.schema.parts route draft = .ok ⟨route, Json.noted members⟩)
    (presents : Presents shape members event) :
    decodeAs event.kind route draft = .ok event := by
  have foundTime :
      members.lookup "timestamp" = event.timestamp.map fun time => shape (.signed time) := by
    rw [presents _ rfl, lookup_timestamp, Option.map_map]
    rfl
  have foundRaw : members.lookup "rawEvent" = event.rawEvent.map shape := by
    rw [presents _ rfl, lookup_rawEvent]
  have foundNumber :
      members.lookup "sequenceNumber" =
        event.sequenceNumber.map fun number => shape (.word number) := by
    rw [presents _ rfl, lookup_sequenceNumber, Option.map_map]
    rfl
  have timestamp := Parts.optional_member? foundTime
    (carries.recovers (fun _ _ => rfl) (Decoder.recovers_signed _ _))
  have rawEvent := Parts.optional_member? foundRaw (carries.recovers_json canonical.rawEvent)
  have number := Parts.optional_member? foundNumber
    (carries.recovers (fun _ _ => rfl) (Decoder.recovers_word _ _))
  have body := bodyOf_noted carries canonical presents
  rw [decodeAs, parts]
  simp only [ofParts, timestamp, rawEvent, number, body, bind, Except.bind]

/-- The members of an event, set aside while a text is read, are decoded to it. -/
theorem decodeAs_members (canonical : event.Canonical) :
    decodeAs event.kind .buffer (.object (Draft.ofMembers event.members) none) = .ok event := by
  have different := (List.nodup_cons.mp (members_names event)).2
  have parts :=
    Schema.parts_ofMembers carries_buffer.entered different (members_fit carries_buffer canonical)
  exact decodeAs_of_parts carries_buffer canonical parts fun _ _ => Option.map_id'.symm

theorem name_mem_names (kind : EventKind) : kind.name ∈ EventKind.names := by
  cases kind <;> simp [EventKind.names, EventKind.all, EventKind.name]

/-- An event is read back. -/
theorem decode_encode
    {route : Route}
    (canonical : event.Canonical)
    (admits : route.Admits event.encode.depth) :
    decode route (.ofJson event.encode) = .ok event := by
  have others : ∀ member ∈ event.members, member.1 ≠ "type" := by
    intro member inside same
    have single := (List.nodup_cons.mp (members_names event)).1
    exact single (same ▸ List.mem_map_of_mem inside)
  rw [encode_eq] at admits ⊢
  rw [decode, Decoder.tagged_ofMembers (name_mem_names event.kind) others admits]
  simp only [bind, Except.bind, ofName?_name, decodeAs_members canonical]
  rfl

end Encoded

/-- An event whose text can be read: it holds no doubles and is not nested too deeply. -/
structure Legible (event : Event) : Prop where
  canonical : event.Canonical
  whole : event.encode.wholeNumbers = true
  shallow : event.encode.depth ≤ Route.deepest

section Texts

variable {event : Event}

/-- The members of the free-form document of an event, before they are sorted. -/
def documentMembers (event : Event) : List (String × Json) :=
  ("type", .string event.kind.name) ::
    event.members.map fun member => (member.1, member.2.normal)

theorem documentMembers_names (event : Event) :
    (event.documentMembers.map (·.1)).Nodup := by
  simpa [documentMembers, Function.comp_def] using members_names event

/-- The free-form document of an event is its members, sorted. -/
theorem normal_encode (event : Event) :
    event.encode.normal = .object (Dictionary.ofEntries event.documentMembers) := by
  rw [encode_eq, Json.normal, Json.ofMembers, Json.normalMembers, Json.normalMembers_eq_map]
  rfl

theorem type_unknown (kind : EventKind) : kind.schema.knows "type" = false := by
  cases kind <;> rfl

/-- A field that the kind knows is found in the document as it is in the event. -/
theorem lookup_documentMembers
    {name : String}
    (known : event.kind.schema.knows name = true) :
    event.documentMembers.lookup name = (event.members.lookup name).map Json.normal := by
  have other : (name == "type") = false :=
    beq_eq_false_iff_ne.mpr (Schema.ne_of_knows (type_unknown event.kind) known)
  rw [documentMembers, List.lookup_cons, other, Json.lookup_mapped]

/-- The free-form document of an event is decoded to it. -/
theorem decodeAs_document (canonical : event.Canonical) :
    (decodeAs event.kind).tree event.encode.normal = .ok event := by
  have fits : ∀ member ∈ Dictionary.ofEntries event.documentMembers,
      event.kind.schema.knows member.1 = true → event.kind.schema.Fits .tree member := by
    intro member inside known
    rcases List.mem_cons.mp (Dictionary.mem_of_mem_ofEntries inside) with rfl | mapped
    · rw [type_unknown] at known
      cases known
    · obtain ⟨source, among, rfl⟩ := List.mem_map.mp mapped
      exact members_fit carries_tree canonical source among
  have parts := Schema.parts_among carries_tree.entered
    (Dictionary.nodup_ofEntries event.documentMembers) fits
  rw [normal_encode, Decoder.tree, Draft.ofJson]
  refine decodeAs_of_parts carries_tree canonical parts ?_
  intro name known
  rw [Json.lookup_filter event.kind.schema.knows, if_pos known, ← lookup_documentMembers known]
  exact Dictionary.get?_ofEntries (documentMembers_names event) name

/-- The text of an event is read as that event, though its members are sorted on the way. -/
theorem ofText_text (legible : event.Legible) : ofText event.text = .ok event := by
  have named : event.encode.normal.get? "type" = some (.string event.kind.name) := by
    rw [normal_encode]
    exact Dictionary.get?_ofEntries (documentMembers_names event) "type"
  have read := decodeAs_document legible.canonical
  have document := Decoder.json_text legible.whole legible.shallow
  exact ofText_eq_ok.mpr ⟨_, document, ofDocument_eq_ok.mpr ⟨event.kind, named, read⟩⟩

end Texts

end Event

end AgentWire

import AgentWire.Proofs.Json.Canonical
import AgentWire.Proofs.Json.Distinct
import Mathlib.Data.Option.Basic

namespace AgentWire.Json

/-!
# Drafts and documents are decoded alike

A draft that was set aside is decoded as the document that it shows is decoded: members that
stand in another order are found by their names, and nothing else tells the two apart.
-/

namespace Reading

variable {α β : Type}

/-- Two readings that succeed with the same values. -/
def Same (first second : Reading α) : Prop :=
  ∀ value, first = .ok value ↔ second = .ok value

theorem Same.of_eq
    {first second : Reading α}
    (equal : first = second) :
    first.Same second := by
  intro value
  rw [equal]

/-- Readings that both fail agree, whatever their errors are. -/
theorem Same.of_fail
    {first second : Reading α}
    (firstFails : ∀ value, first ≠ .ok value)
    (secondFails : ∀ value, second ≠ .ok value) :
    first.Same second :=
  fun value => iff_of_false (firstFails value) (secondFails value)

/-- Readings that succeed alike are followed alike. -/
theorem Same.bind
    {first second : Reading α}
    {next other : α → Reading β}
    (same : first.Same second)
    (further : ∀ value, (next value).Same (other value)) :
    (first >>= next).Same (second >>= other) := by
  intro result
  rw [bind_eq_ok, bind_eq_ok]
  exact exists_congr fun value => and_congr (same value) (further value result)

theorem ok_bind
    (value : α)
    (next : α → Reading β) :
    (.ok value >>= next) = next value :=
  rfl

theorem Same.within
    {first second : Reading α}
    (same : first.Same second)
    (step : Step) :
    (first.within step).Same (second.within step) := by
  intro value
  rw [within_eq_ok, within_eq_ok, same]

end Reading

namespace Draft

/-- A draft that is read as a document, however deeply it is nested. -/
def Shows (draft : Draft) (document : Json) : Prop :=
  Draft.document .buffer draft = .ok document

variable
  {route : Route}
  {value : Json}

/-- Showing a document passes from the parts of a draft to the whole. -/
theorem hereditary_shows : Hereditary fun _ draft document => draft.Shows document where
  flat _ document flat := by
    cases document with
    | null | bool | number | string => rw [Shows, ofJson, Draft.document]
    | array | object => cases flat
  array _ _ items values _ shows :=
    document_array_eq_ok.mpr ⟨.buffer, values, rfl, rfl, rfl, shows⟩
  object _ _ named values _ shows :=
    document_object_eq_ok.mpr ⟨.buffer, named, values, rfl, rfl, rfl, rfl, shows⟩

/-- What is read from a text is read without regard to the nesting as well. -/
theorem shows_of_document
    (draft : Draft)
    {route : Route}
    {value : Json}
    (decoded : document route draft = .ok value) :
    draft.Shows value :=
  hereditary_shows.of_document draft decoded

variable
  {named : List (String × Draft)}
  {values : List (String × Json)}

/-- Documents are read under the names of their drafts. -/
theorem Reads.names (reads : Reads route named values) :
    named.map (·.1) = values.map (·.1) := by
  induction reads with
  | nil => rfl
  | cons read _ inductionHypothesis => rw [List.map_cons, List.map_cons, inductionHypothesis, read.1]

theorem Reads.readable (reads : Reads route named values) :
    ∀ member ∈ named, ∃ value, document route member.2 = .ok value := by
  intro member inside
  obtain ⟨value, -, -, read⟩ := exists_right_of_forall₂ reads member inside
  exact ⟨value.2, read⟩

/-- Under each name there is a draft exactly where there is a document, and it shows it. -/
theorem Reads.lookup
    (reads : Reads route named values)
    (name : String) :
    Option.Rel Shows (named.lookup name) (values.lookup name) := by
  induction reads with
  | nil => exact .none
  | @cons member value _ _ read _ inductionHypothesis =>
      obtain ⟨title, draft⟩ := member
      obtain ⟨same, read⟩ := read
      rw [List.lookup_cons, List.lookup_cons, ← same]
      cases name == title with
      | true => exact .some (shows_of_document draft read)
      | false => exact inductionHypothesis

/-- Only a string shows a string. -/
theorem Shows.eq_string_iff
    {draft : Draft}
    {text : String}
    (shows : draft.Shows value) :
    draft = .string text ↔ value = .string text := by
  cases draft with
  | array items stop =>
      obtain ⟨inner, values, -, rfl, -⟩ := document_array_eq_ok.mp shows
      simp
  | object members stop =>
      obtain ⟨inner, named, values, -, -, rfl, -⟩ := document_object_eq_ok.mp shows
      simp [Json.ofMembers]
  | null | bool | number | string | spoilt | broken =>
      rw [Shows, document] at shows
      cases shows <;> simp

/--
The members of an object draft, and those of the document that it shows.  They have the same
names, each once, but may stand in another order.
-/
structure Displays
    (named : List (String × Draft))
    (documents : List (String × Json)) :
    Prop where
  different : (named.map (·.1)).Nodup
  sorted : (documents.map (·.1)).Nodup
  whole : ∀ member ∈ named, member.2.Whole
  shown : ∀ name, Option.Rel Shows (named.lookup name) (documents.lookup name)

/-- A member is a string exactly where the document has the same string. -/
theorem Displays.lookup_string_iff
    {documents : List (String × Json)}
    {name text : String}
    (displays : Displays named documents) :
    named.lookup name = some (.string text) ↔ documents.lookup name = some (.string text) := by
  have shown := displays.shown name
  generalize named.lookup name = first at shown ⊢
  generalize documents.lookup name = second at shown ⊢
  cases shown with
  | none => simp
  | some shows => simpa using shows.eq_string_iff

/-- What is known of an object draft that is read and names no member twice. -/
theorem displays_of_document
    {members : List (Key × Draft)}
    {stop : Option Break}
    (decoded : document route (.object members stop) = .ok value)
    (distinct : (object members stop).distinct = true) :
    stop = none ∧
      ∃ inner named documents,
        route.enter = .ok inner ∧ members = keyed named ∧ value = .object documents ∧
          Displays named documents ∧
            ∀ member ∈ named, ∃ document, Decoder.json inner member.2 = .ok document := by
  obtain ⟨inner, named, values, rfl, closed, rfl, entered, reads⟩ :=
    document_object_eq_ok.mp decoded
  rw [Draft.distinct, Bool.and_eq_true, decide_eq_true_eq, memberNames_keyed] at distinct
  have different := distinct.1
  have sameNames := reads.names ▸ different
  refine ⟨closed, inner, named, _, entered, rfl, rfl, ⟨different, ?_, ?_, fun name => ?_⟩,
    reads.readable⟩
  · exact Dictionary.nodup_ofEntries values
  · intro member inside
    obtain ⟨document, read⟩ := reads.readable member inside
    exact whole_of_document member.2 read
  · have found := Dictionary.get?_ofEntries sameNames name
    rw [Dictionary.get?] at found
    rw [found]
    exact reads.lookup name

end Draft

namespace Decoder

variable
  {α : Type}
  {decoder : Decoder α}
  {route : Route}
  {draft : Draft}
  {document : Json}

/-- A decoder to which a draft says the same as the document that it shows. -/
def Agrees
    (decoder : Decoder α)
    (route : Route)
    (draft : Draft)
    (document : Json) :
    Prop :=
  Reading.Same (decoder .buffer draft) (decoder route (.ofJson document))

/-- A decoder to which the member of a name says the same as the document that it shows. -/
def AgreesAt
    (decoder : Decoder α)
    (route : Route)
    (named : List (String × Draft))
    (name : String) :
    Prop :=
  ∀ draft document, named.lookup name = some draft → draft.Shows document →
    decoder.Agrees route draft document

/-- A decoder of values without parts, whatever they come from. -/
structure Flat (decoder : Decoder α) : Prop where
  unrouted : ∀ route other draft, decoder route draft = decoder other draft
  array : ∀ route items stop value, decoder route (.array items stop) ≠ .ok value
  object : ∀ route members stop value, decoder route (.object members stop) ≠ .ok value

theorem flat_string : string.Flat where
  unrouted route other draft := by cases draft <;> rfl
  array _ _ _ _ := Draft.refuse_ne_ok
  object _ _ _ _ := Draft.refuse_ne_ok

theorem flat_word : word.Flat where
  unrouted route other draft := by
    cases draft with
    | number number => cases number <;> rfl
    | null | bool | string | array | object | spoilt | broken => rfl
  array _ _ _ _ := Draft.refuse_ne_ok
  object _ _ _ _ := Draft.refuse_ne_ok

theorem flat_signed : signed.Flat where
  unrouted route other draft := by
    cases draft with
    | number number => cases number <;> rfl
    | null | bool | string | array | object | spoilt | broken => rfl
  array _ _ _ _ := Draft.refuse_ne_ok
  object _ _ _ _ := Draft.refuse_ne_ok

/-- A decoder that only looks at one token decodes a draft as its document. -/
theorem Flat.agrees
    (flat : decoder.Flat)
    (shows : draft.Shows document) :
    decoder.Agrees route draft document := by
  cases draft with
  | array items stop =>
      obtain ⟨inner, values, -, rfl, -⟩ := Draft.document_array_eq_ok.mp shows
      rw [Agrees, Draft.ofJson]
      exact .of_fail (flat.array _ _ _) (flat.array _ _ _)
  | object members stop =>
      obtain ⟨inner, named, values, -, -, rfl, -⟩ := Draft.document_object_eq_ok.mp shows
      rw [Agrees, Json.ofMembers, Draft.ofJson]
      exact .of_fail (flat.object _ _ _) (flat.object _ _ _)
  | null | bool | number | string =>
      rw [Draft.Shows, Draft.document] at shows
      cases shows
      rw [Agrees, Draft.ofJson]
      exact .of_eq (flat.unrouted _ _ _)
  | spoilt | broken =>
      rw [Draft.Shows, Draft.document] at shows
      cases shows

/-- A free-form document is the same from a draft and from what the draft shows. -/
theorem agrees_json
    (free : ∀ levels, route.Admits levels)
    (shows : draft.Shows document) :
    json.Agrees route draft document := by
  have read := Draft.document_ofJson document (free document.depth)
  rw [normal_of_canonical document (Draft.canonical_of_document draft shows)] at read
  exact .of_eq (shows.trans read.symm)

/-- A value that may be null is decoded alike where the value is. -/
theorem Agrees.optional
    (agrees : decoder.Agrees route draft document)
    (shows : draft.Shows document) :
    (Decoder.optional decoder).Agrees route draft document := by
  by_cases absent : draft = .null
  · subst absent
    rw [Draft.Shows, Draft.document] at shows
    cases shows
    rw [Agrees, Draft.ofJson]
    exact .of_eq rfl
  · have present : Draft.ofJson document ≠ .null := by
      cases document with
      | null => exact absurd (Draft.eq_null_of_document shows) absent
      | bool | number | string | array | object =>
          rw [Draft.ofJson]
          simp
    rw [Agrees, Decoder.optional, Decoder.optional]
    · exact Reading.Same.bind agrees fun value => .of_eq rfl
    · exact present
    · exact absent

theorem Agrees.check
    (agrees : decoder.Agrees route draft document) :
    decoder.check.Agrees route draft document :=
  agrees.bind fun _ => .of_eq rfl

variable
  {named : List (String × Draft)}
  {name : String}

theorem Flat.agreesAt (flat : decoder.Flat) : decoder.AgreesAt route named name :=
  fun _ _ _ shows => flat.agrees shows

theorem agreesAt_json (free : ∀ levels, route.Admits levels) : json.AgreesAt route named name :=
  fun _ _ _ shows => agrees_json free shows

theorem AgreesAt.check
    (agrees : decoder.AgreesAt route named name) :
    decoder.check.AgreesAt route named name :=
  fun draft document found shows => (agrees draft document found shows).check

theorem AgreesAt.optional
    (agrees : decoder.AgreesAt route named name) :
    (Decoder.optional decoder).AgreesAt route named name :=
  fun draft document found shows => (agrees draft document found shows).optional shows

/-- Items that are decoded alike one by one are decoded alike as a list. -/
theorem same_items
    {items : List Draft}
    {values : List Json}
    (shown : List.Forall₂ Draft.Shows items values)
    (agrees : ∀ item ∈ items, ∀ value, item.Shows value → decoder.Agrees route item value)
    (index : Nat) :
    (Decoder.items decoder .buffer index items).Same
      (Decoder.items decoder route index (Draft.ofItems values)) := by
  induction shown generalizing index with
  | nil => exact .of_eq rfl
  | @cons item value items values shows _ inductionHypothesis =>
      obtain ⟨first, others⟩ := List.forall_mem_cons.mp agrees
      rw [Draft.ofItems, Decoder.items, Decoder.items]
      refine ((first value shows).within (.item index)).bind fun decoded => ?_
      exact (inductionHypothesis others (index + 1)).bind fun rest => .of_eq rfl

/-- A list of values that are decoded alike. -/
theorem agrees_list
    (entered : route.enter = .ok route)
    (shows : draft.Shows document)
    (agrees :
      ∀ items stop, draft = .array items stop →
        ∀ item ∈ items, ∀ value, item.Shows value → decoder.Agrees route item value) :
    (list decoder).Agrees route draft document := by
  cases draft with
  | array items stop =>
      obtain ⟨inner, values, rfl, rfl, -, read⟩ := Draft.document_array_eq_ok.mp shows
      have shown : List.Forall₂ Draft.Shows items values :=
        read.imp fun item value read => Draft.shows_of_document item read
      rw [Agrees, Draft.ofJson, list, list, entered, Route.enter, Reading.ok_bind,
        Reading.ok_bind]
      refine Reading.Same.bind (same_items shown (agrees items none rfl) 0) fun decoded => ?_
      exact .of_eq rfl
  | object members stop =>
      obtain ⟨inner, named, values, -, -, rfl, -⟩ := Draft.document_object_eq_ok.mp shows
      rw [Agrees, Json.ofMembers, Draft.ofJson]
      exact .of_fail (fun _ => Draft.refuse_ne_ok) (fun _ => Draft.refuse_ne_ok)
  | null | bool | number | string =>
      rw [Draft.Shows, Draft.document] at shows
      cases shows
      rw [Agrees, Draft.ofJson]
      exact .of_fail (fun _ => Draft.refuse_ne_ok) (fun _ => Draft.refuse_ne_ok)
  | spoilt | broken =>
      rw [Draft.Shows, Draft.document] at shows
      cases shows

end Decoder

namespace Parts

/-- Parts that were set aside, and those of the documents that they show. -/
structure Alike (parts other : Parts) : Prop where
  buffered : parts.route = .buffer
  free : ∀ levels, other.route.Admits levels
  lookup :
    ∀ name,
      Option.Rel (fun draft source => ∃ document, source = .ofJson document ∧ draft.Shows document)
        (parts.members.lookup name) (other.members.lookup name)

variable
  {α : Type}
  {decoder : Decoder α}
  {parts other : Parts}
  {name : String}

/-- A member that is required is read alike from parts that are alike. -/
theorem Alike.required
    (alike : parts.Alike other)
    (agrees : decoder.AgreesAt other.route parts.members name) :
    (parts.required name decoder).Same (other.required name decoder) := by
  have found := alike.lookup name
  rw [Parts.required, Parts.required, alike.buffered]
  generalize taken : other.members.lookup name = second at found ⊢
  generalize given : parts.members.lookup name = first at found ⊢
  cases found with
  | none => exact .of_eq rfl
  | some held =>
      obtain ⟨document, rfl, shows⟩ := held
      exact agrees _ document given shows

/-- A member that may be missing is read alike from parts that are alike. -/
theorem Alike.optional
    (alike : parts.Alike other)
    (agrees : decoder.AgreesAt other.route parts.members name) :
    (parts.optional name decoder).Same (other.optional name decoder) := by
  have found := alike.lookup name
  rw [Parts.optional, Parts.optional, alike.buffered]
  generalize taken : other.members.lookup name = second at found ⊢
  generalize given : parts.members.lookup name = first at found ⊢
  cases found with
  | none => exact .of_eq rfl
  | some held =>
      obtain ⟨document, rfl, shows⟩ := held
      exact agrees.optional _ document given shows

end Parts

namespace Schema

/--
A record set aside, and the record in a document: each known member of the one shows the
member of that name in the other, and what is checked of it does not tell them apart.
-/
structure Matches
    (schema : Schema)
    (route : Route)
    (named : List (String × Draft))
    (documents : List (String × Json)) :
    Prop where
  entered : route.enter = .ok route
  free : ∀ levels, route.Admits levels
  different : (named.map (·.1)).Nodup
  sorted : (documents.map (·.1)).Nodup
  whole : ∀ member ∈ named, member.2.Whole
  shown :
    ∀ name, schema.knows name = true →
      Option.Rel Draft.Shows (named.lookup name) (documents.lookup name)
  checked : ∀ field ∈ schema.fields, field.check.AgreesAt route named field.name

variable
  {schema : Schema}
  {route : Route}
  {named : List (String × Draft)}
  {documents : List (String × Json)}

/-- A record matches what it displays, also if members that it does not know are left out. -/
theorem matches_of_displays
    (kept left : String → Bool)
    (entered : route.enter = .ok route)
    (free : ∀ levels, route.Admits levels)
    (displays : Draft.Displays named documents)
    (known : ∀ name, schema.knows name = true → kept name = true ∧ left name = true)
    (checked : ∀ field ∈ schema.fields, field.check.AgreesAt route named field.name) :
    schema.Matches route (named.filter (kept ·.1)) (documents.filter (left ·.1)) where
  entered := entered
  free := free
  different := displays.different.sublist (List.filter_sublist.map _)
  sorted := displays.sorted.sublist (List.filter_sublist.map _)
  whole member inside := displays.whole member (List.mem_of_mem_filter inside)
  shown name knows := by
    obtain ⟨first, second⟩ := known name knows
    rw [lookup_filter kept, lookup_filter left, first, second]
    exact displays.shown name
  checked field among draft document found :=
    checked field among draft document (lookup_of_filter kept found)

theorem accepts_iff_lookup
    (different : (named.map (·.1)).Nodup) :
    (∀ member ∈ named, schema.Accepts route member) ↔
      ∀ name draft, named.lookup name = some draft → schema.Accepts route (name, draft) := by
  simp only [lookup_eq_some_iff different, Prod.forall]

/-- A record accepts the members of a draft exactly where it accepts those of its document. -/
theorem Matches.accepts_iff (agree : schema.Matches route named documents) :
    (∀ member ∈ named, schema.Accepts .buffer member) ↔
      ∀ member ∈ noted documents, schema.Accepts route member := by
  have sorted : ((noted documents).map (·.1)).Nodup := names_noted ▸ agree.sorted
  rw [accepts_iff_lookup agree.different, accepts_iff_lookup sorted]
  refine forall_congr' fun name => ?_
  cases known : schema.fields.find? (·.name == name) with
  | none => simp [Accepts, known]
  | some field =>
      have knows : schema.knows name = true := by rw [knows, known, Option.isSome_some]
      have called := List.find?_some known
      obtain rfl := beq_iff_eq.mp called
      have accepts (route : Route) (draft : Draft) :
          schema.Accepts route (field.name, draft) ↔ field.check route draft = .ok () := by
        simp [Accepts, known]
      have checked := agree.checked field (List.mem_of_find?_eq_some known)
      have shown := agree.shown field.name knows
      simp only [accepts, lookup_noted]
      generalize given : named.lookup field.name = first at shown ⊢
      generalize documents.lookup field.name = second at shown ⊢
      cases shown with
      | none => simp
      | some shows => simpa using checked _ _ given shows ()

/-- What a record notes of a draft is alike to what it notes of its document. -/
theorem Matches.alike (agree : schema.Matches route named documents) :
    Parts.Alike
      ⟨.buffer, named.filter (schema.knows ·.1)⟩
      ⟨route, (noted documents).filter (schema.knows ·.1)⟩ where
  buffered := rfl
  free := agree.free
  lookup name := by
    rw [lookup_filter schema.knows, lookup_filter schema.knows, lookup_noted]
    cases knows : schema.knows name with
    | false => exact .none
    | true =>
        have shown := agree.shown name knows
        rw [if_pos rfl, if_pos rfl]
        generalize named.lookup name = first at shown ⊢
        generalize documents.lookup name = second at shown ⊢
        cases shown with
        | none => exact .none
        | some shows => exact .some ⟨_, rfl, shows⟩

/-- A record is decoded alike from either, if its parts are. -/
theorem Matches.same
    {α : Type}
    {next : Parts → Reading α}
    (agree : schema.Matches route named documents)
    (further :
      ∀ parts other : Parts, parts.Alike other → other.route = route →
        (∀ name draft, parts.members.lookup name = some draft → named.lookup name = some draft) →
          (next parts).Same (next other)) :
    (schema.parts .buffer (.object (Draft.keyed named) none) >>= next).Same
      (schema.parts route (.ofJson (.object documents)) >>= next) := by
  have sorted : ((noted documents).map (·.1)).Nodup := names_noted ▸ agree.sorted
  have passed : ∀ member ∈ noted documents, member.2.Whole := by
    intro member inside
    obtain ⟨source, -, rfl⟩ := List.mem_map.mp inside
    exact Draft.passOver_ofJson source.2
  have same := further _ _ agree.alike rfl fun name draft => lookup_of_filter schema.knows
  intro result
  rw [Draft.ofJson, ← Draft.keyed_noted, bind_eq_ok, bind_eq_ok]
  simp only [parts_keyed (rfl : Route.enter .buffer = .ok .buffer) agree.different agree.whole,
    parts_keyed agree.entered sorted passed, agree.accepts_iff]
  constructor
  · rintro ⟨parts, ⟨accepts, rfl⟩, read⟩
    exact ⟨_, ⟨accepts, rfl⟩, (same result).mp read⟩
  · rintro ⟨parts, ⟨accepts, rfl⟩, read⟩
    exact ⟨_, ⟨accepts, rfl⟩, (same result).mpr read⟩

end Schema

end AgentWire.Json

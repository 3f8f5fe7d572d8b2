import AgentWire.Proofs.Json.Document

namespace AgentWire.Json

/-!
# What breaks off is not decoded

A draft can be passed over exactly if the text does not break off in it.  A decoder
that gives a value has met all of its draft, so that a draft that cannot be passed
over is not decoded either.
-/

namespace Draft

/-- A draft whose text does not break off. -/
def Whole (draft : Draft) : Prop :=
  draft.passOver = .ok ()

theorem closedUnread_eq_ok {stop : Option Break} : closedUnread stop = .ok () ↔ stop = none := by
  cases stop <;> simp [closedUnread, Reading.flawed]

/-- Items can be passed over if none of them breaks off. -/
theorem passOverItems_eq_ok {items : List Draft} :
    passOverItems items = .ok () ↔ ∀ item ∈ items, item.Whole := by
  induction items with
  | nil => simp [passOverItems]
  | cons item rest inductionHypothesis =>
      rw [passOverItems, check_bind_eq_ok, List.forall_mem_cons, ← inductionHypothesis,
        Whole]

/-- Members can be passed over if no value breaks off. -/
theorem passOverMembers_eq_ok {members : List (Key × Draft)} :
    passOverMembers members = .ok () ↔ ∀ member ∈ members, member.2.Whole := by
  induction members with
  | nil => simp [passOverMembers]
  | cons member rest inductionHypothesis =>
      obtain ⟨key, value⟩ := member
      rw [passOverMembers, check_bind_eq_ok, List.forall_mem_cons, ← inductionHypothesis,
        Whole]

@[simp] theorem whole_array
    {items : List Draft}
    {stop : Option Break} :
    (array items stop).Whole ↔ (∀ item ∈ items, item.Whole) ∧ stop = none := by
  rw [Whole, passOver, check_bind_eq_ok, passOverItems_eq_ok, closedUnread_eq_ok]

@[simp] theorem whole_object
    {members : List (Key × Draft)}
    {stop : Option Break} :
    (object members stop).Whole ↔ (∀ member ∈ members, member.2.Whole) ∧ stop = none := by
  rw [Whole, passOver, check_bind_eq_ok, passOverMembers_eq_ok, closedUnread_eq_ok]

@[simp] theorem not_whole_broken {spot : Break} : ¬(broken spot).Whole := by
  simp [Whole, passOver, Reading.flawed]

/-- A draft that is refused gives no value. -/
theorem refuse_ne_ok
    {α : Type}
    {draft : Draft}
    {expected : String}
    {value : α} :
    draft.refuse expected ≠ .ok value := by
  intro read
  rw [refuse, bind_eq_ok] at read
  obtain ⟨found, -, refused⟩ := read
  cases refused

/-- A draft is whole if its parts are. -/
theorem hereditary_whole : Hereditary fun _ draft _ => draft.Whole where
  flat _ document _ := passOver_ofJson document
  array _ _ items values _ whole := by
    refine whole_array.mpr ⟨fun item member => ?_, rfl⟩
    obtain ⟨_, _, whole⟩ := exists_right_of_forall₂ whole item member
    exact whole
  object _ _ named values _ whole := by
    refine whole_object.mpr ⟨fun member inside => ?_, rfl⟩
    obtain ⟨source, among, rfl⟩ := List.mem_map.mp inside
    obtain ⟨_, _, _, whole⟩ := exists_right_of_forall₂ whole source among
    exact whole

/-- A document is read to its end. -/
theorem whole_of_document
    (draft : Draft)
    {route : Route}
    {value : Json}
    (decoded : document route draft = .ok value) :
    draft.Whole :=
  hereditary_whole.of_document draft decoded

end Draft

namespace Decoder

variable
  {route : Route}
  {draft : Draft}
  {known : List String}

/-- A draft that is decoded to a word is whole. -/
theorem whole_of_word
    {value : UInt64}
    (decoded : word route draft = .ok value) :
    draft.Whole := by
  cases draft with
  | number number => simp [Draft.Whole, Draft.passOver]
  | null | bool | string | array | object | spoilt | broken =>
      exact absurd decoded Draft.refuse_ne_ok

/-- A draft that names a variant is a document. -/
theorem document_of_variantName
    {name : String}
    (decoded : variantName known route draft = .ok name) :
    ∃ document, json route draft = .ok document := by
  cases draft with
  | number value => exact ⟨.number value, by rw [json, Draft.document]⟩
  | string value => exact ⟨.string value, by rw [json, Draft.document]⟩
  | null | bool | array | object | spoilt | broken =>
      cases route <;> exact absurd decoded Draft.refuse_ne_ok

/-- The tag and the members that are set aside can all be read. -/
theorem documentMembers_of_visitTagged
    {tag : String}
    {chosen variant : Option String}
    {kept parts members : List (Key × Draft)}
    (visited : visitTagged tag known route chosen kept members = .ok (variant, parts)) :
    ∃ documents, Draft.documentMembers route members = .ok documents := by
  induction members generalizing chosen kept with
  | nil => exact ⟨[], by rw [Draft.documentMembers]⟩
  | cons member rest inductionHypothesis =>
      obtain ⟨key, value⟩ := member
      have both
          {name : String}
          (first : ∃ document, json route value = .ok document)
          (others : ∃ documents, Draft.documentMembers route rest = .ok documents) :
          ∃ documents, Draft.documentMembers route ((.name name, value) :: rest) = .ok documents := by
        obtain ⟨document, read⟩ := first
        obtain ⟨documents, readOthers⟩ := others
        rw [json] at read
        refine ⟨(name, document) :: documents, ?_⟩
        simp [Draft.documentMembers, read, readOthers, bind, Except.bind]
      cases key with
      | spoilt flaw => cases visited
      | name name =>
          simp only [visitTagged] at visited
          split at visited
          · cases chosen with
            | some chosen => cases visited
            | none =>
                simp only [bind_eq_ok, Draft.inMember_eq_ok] at visited
                obtain ⟨found, read, visited⟩ := visited
                exact both (document_of_variantName read) (inductionHypothesis visited)
          · simp only [bind_eq_ok, Draft.inMember_eq_ok] at visited
            obtain ⟨found, read, visited⟩ := visited
            exact both ⟨found, read⟩ (inductionHypothesis visited)

/-- A tagged value that is an object can be read as a document. -/
theorem document_of_tagged
    {title tag : String}
    {members : List (Key × Draft)}
    {stop : Option Break}
    {parts : String × Draft}
    (decoded : tagged title tag known route (.object members stop) = .ok parts) :
    ∃ document, json route (.object members stop) = .ok document := by
  simp only [tagged, bind_eq_ok] at decoded
  obtain ⟨inner, entered, ⟨variant, kept⟩, visited, ⟨⟩, closed, -⟩ := decoded
  obtain ⟨documents, read⟩ := documentMembers_of_visitTagged visited
  refine ⟨Json.ofMembers documents, ?_⟩
  simp only [json, Draft.document, entered, read, closed, bind, Except.bind]

/-- So can all the items of a tagged value that is an array. -/
theorem documents_of_tagged
    {title tag : String}
    {items : List Draft}
    {stop : Option Break}
    {parts : String × Draft}
    (decoded : tagged title tag known route (.array items stop) = .ok parts) :
    ∃ inner,
      route.enter = .ok inner ∧ stop = none ∧
        ∀ item ∈ items, ∃ document, json inner item = .ok document := by
  cases items with
  | nil =>
      simp only [tagged, bind_eq_ok] at decoded
      obtain ⟨inner, -, -, -, missing⟩ := decoded
      cases missing
  | cons first rest =>
      simp only [tagged, bind_eq_ok, Reading.within_eq_ok] at decoded
      obtain ⟨inner, entered, name, named, values, read, ⟨⟩, closed, -⟩ := decoded
      refine ⟨inner, entered, Draft.closed_eq_ok.mp closed, ?_⟩
      refine List.forall_mem_cons.mpr ⟨document_of_variantName named, fun item member => ?_⟩
      obtain ⟨value, -, read⟩ :=
        exists_right_of_forall₂ (Draft.documentItems_eq_ok.mp read) item member
      exact ⟨value, read⟩

/-- A tagged value is met to its end. -/
theorem whole_of_tagged
    {title tag : String}
    {parts : String × Draft}
    (decoded : tagged title tag known route draft = .ok parts) :
    draft.Whole := by
  cases draft with
  | object members stop =>
      obtain ⟨document, read⟩ := document_of_tagged decoded
      exact Draft.whole_of_document _ read
  | array items stop =>
      obtain ⟨inner, -, closed, documents⟩ := documents_of_tagged decoded
      refine Draft.whole_array.mpr ⟨fun item member => ?_, closed⟩
      obtain ⟨document, read⟩ := documents item member
      exact Draft.whole_of_document item read
  | null | bool | number | string | spoilt | broken => exact absurd decoded Draft.refuse_ne_ok

end Decoder

namespace Schema

variable
  {schema : Schema}
  {route : Route}

/-- A record each of whose known members is met to its end. -/
def Thorough (schema : Schema) : Prop :=
  ∀ field ∈ schema.fields, ∀ route draft, field.check route draft = .ok () → draft.Whole

/-- A record that meets all its members to their ends has none that breaks off. -/
theorem whole_of_visit
    (thorough : schema.Thorough)
    {seen parts : List (String × Draft)}
    {members : List (Key × Draft)}
    (visited : schema.visit route seen members = .ok parts) :
    ∀ member ∈ members, member.2.Whole := by
  induction members generalizing seen with
  | nil => simp
  | cons member rest inductionHypothesis =>
      obtain ⟨key, value⟩ := member
      cases key with
      | spoilt flaw => cases visited
      | name name =>
          rw [visit] at visited
          split at visited
          · rw [check_bind_eq_ok, Draft.inMember_eq_ok] at visited
            exact List.forall_mem_cons.mpr ⟨visited.1, inductionHypothesis visited.2⟩
          · next field known =>
              split at visited
              · cases visited
              · simp only [check_bind_eq_ok, Draft.inMember_eq_ok] at visited
                obtain ⟨checked, visited⟩ := visited
                have whole := thorough field (List.mem_of_find?_eq_some known) route value checked
                exact List.forall_mem_cons.mpr ⟨whole, inductionHypothesis visited⟩

/-- Nothing is left over where the items are used up and the array is closed. -/
theorem leftover_eq_ok
    {read : Nat}
    {rest : List Draft}
    {stop : Option Break} :
    leftover route read rest stop = .ok () ↔ rest = [] ∧ stop = none := by
  unfold leftover
  repeat' split
  all_goals simp_all [Reading.flawed, Reading.mismatched]

/-- A record that is read from an array meets all its items and their end. -/
theorem whole_of_visitItems
    {stop : Option Break}
    {index : Nat}
    {seen parts : List (String × Draft)}
    {fields : List Field}
    (thorough :
      ∀ field ∈ fields, ∀ route draft, field.check route draft = .ok () → draft.Whole)
    {items : List Draft}
    (visited : schema.visitItems route stop index seen fields items = .ok parts) :
    (∀ item ∈ items, item.Whole) ∧ stop = none := by
  induction fields generalizing index seen items with
  | nil =>
      simp only [visitItems, check_bind_eq_ok, leftover_eq_ok] at visited
      obtain ⟨⟨rfl, rfl⟩, -⟩ := visited
      simp
  | cons field fields inductionHypothesis =>
      obtain ⟨first, others⟩ := List.forall_mem_cons.mp thorough
      cases items with
      | nil =>
          simp only [visitItems, bind_eq_ok] at visited
          obtain ⟨⟨⟩, closed, -⟩ := visited
          exact ⟨by simp, Draft.closed_eq_ok.mp closed⟩
      | cons value rest =>
          simp only [visitItems, bind_eq_ok, Reading.within_eq_ok] at visited
          obtain ⟨⟨⟩, checked, visited⟩ := visited
          obtain ⟨whole, closed⟩ := inductionHypothesis others visited
          exact ⟨List.forall_mem_cons.mpr ⟨first route value checked, whole⟩, closed⟩

/-- A record is met to its end. -/
theorem whole_of_parts
    (thorough : schema.Thorough)
    {draft : Draft}
    {parts : Parts}
    (decoded : schema.parts route draft = .ok parts) :
    draft.Whole := by
  cases draft with
  | object members stop =>
      simp only [Schema.parts, bind_eq_ok, Draft.closedMembers,
        Reading.within_eq_ok] at decoded
      obtain ⟨inner, -, seen, visited, ⟨⟩, closed, -⟩ := decoded
      exact Draft.whole_object.mpr ⟨whole_of_visit thorough visited, Draft.closed_eq_ok.mp closed⟩
  | array items stop =>
      simp only [Schema.parts, bind_eq_ok] at decoded
      obtain ⟨inner, -, seen, visited, -⟩ := decoded
      exact Draft.whole_array.mpr (whole_of_visitItems thorough visited)
  | null | bool | number | string | spoilt | broken => exact absurd decoded Draft.refuse_ne_ok

end Schema

end AgentWire.Json

import AgentWire.Proofs.Json.Document

namespace AgentWire.Json

/-!
# Decoded documents are canonical

Whatever a free-form document is decoded from, the members of its objects are in
order, each once; and it is null only if null was decoded.
-/

theorem canonicalItems_iff
    {items : List Json} :
    canonicalItems items = true ↔ ∀ item ∈ items, item.canonical = true := by
  induction items with
  | nil => simp [canonicalItems]
  | cons item rest inductionHypothesis => simp [canonicalItems, inductionHypothesis]

theorem canonicalMembers_iff
    {members : List (String × Json)} :
    canonicalMembers members = true ↔ ∀ member ∈ members, member.2.canonical = true := by
  induction members with
  | nil => simp [canonicalMembers]
  | cons member rest inductionHypothesis => simp [canonicalMembers, inductionHypothesis]

/-- An object of canonical values is canonical. -/
theorem canonical_ofMembers
    {members : List (String × Json)}
    (canonical : ∀ member ∈ members, member.2.canonical = true) :
    (ofMembers members).canonical = true := by
  rw [ofMembers, Json.canonical, Bool.and_eq_true, canonicalMembers_iff]
  refine ⟨Dictionary.sortedNames_ofEntries members, ?_⟩
  intro member inside
  exact canonical member (Dictionary.mem_of_mem_ofEntries inside)

namespace Draft

/-- Being canonical passes from the parts of a document to the whole. -/
theorem hereditary_canonical : Hereditary fun _ _ document => document.canonical = true where
  flat _ document flat := by
    cases document with
    | null | bool | number | string => rw [Json.canonical] <;> simp
    | array | object => cases flat
  array _ _ items values _ canonical := by
    rw [Json.canonical, canonicalItems_iff]
    intro value member
    obtain ⟨_, _, canonical⟩ := exists_left_of_forall₂ canonical value member
    exact canonical
  object _ _ named values _ canonical := by
    refine canonical_ofMembers fun value member => ?_
    obtain ⟨_, _, _, canonical⟩ := exists_left_of_forall₂ canonical value member
    exact canonical

/-- What is decoded as a free-form document is canonical. -/
theorem canonical_of_document
    (draft : Draft)
    {route : Route}
    {value : Json}
    (decoded : document route draft = .ok value) :
    value.canonical = true :=
  hereditary_canonical.of_document draft decoded

/-- Only null is decoded as null. -/
theorem eq_null_of_document
    {draft : Draft}
    {route : Route}
    (decoded : document route draft = .ok .null) :
    draft = .null := by
  cases draft with
  | null => rfl
  | array items stop =>
      obtain ⟨inner, values, -, ⟨⟩, -⟩ := document_array_eq_ok.mp decoded
  | object members stop =>
      obtain ⟨inner, named, values, -, -, ⟨⟩, -⟩ := document_object_eq_ok.mp decoded
  | bool | number | string | spoilt | broken =>
      rw [document] at decoded
      cases decoded

end Draft

/-- A document that is canonical, and not null if there is one. -/
def Settled (document : Option Json) : Prop :=
  ∀ present, document = some present → present.canonical = true ∧ present ≠ .null

/-- A document that may be missing is canonical, and null counts as missing. -/
theorem settled_of_optional
    {parts : Parts}
    {name : String}
    {document : Option Json}
    (read : parts.optional name Decoder.json = .ok document) :
    Settled document := by
  rintro present rfl
  obtain ⟨draft, -, other, decoded⟩ := Parts.optional_eq_some read
  refine ⟨Draft.canonical_of_document draft decoded, ?_⟩
  rintro rfl
  exact other (Draft.eq_null_of_document decoded)

end AgentWire.Json

import AgentWire.Proofs.Json.Extent

namespace AgentWire.Json

/-!
# How deeply a text may be nested

The levels that a route leaves open decide whether a draft is read, and not as what.  So a
free-form document is read from its text if and only if it has no more levels than a text
may have, wherever in the text it stands.
-/

namespace Draft

variable {route other : Route}

/-- By a route without a limit, the whole is read as its parts are. -/
theorem hereditary_free (free : ∀ levels, other.Admits levels) :
    Hereditary fun _ draft document => Draft.document other draft = .ok document := by
  have entered : other.enter = .ok other := by
    cases other with
    | text levels => exact absurd (free (levels + 1)) (Nat.not_succ_le_self levels)
    | tree | buffer => rfl
  refine ⟨fun _ document flat => ?flat, fun _ _ items values _ read => ?array,
    fun _ _ named values _ reads => ?object⟩
  case flat =>
    rw [document_ofJson document (free _)]
    cases document with
    | array | object => cases flat
    | null | bool | number | string => rw [normal] <;> simp
  case array => exact document_array_eq_ok.mpr ⟨other, values, rfl, rfl, entered, read⟩
  case object => exact document_object_eq_ok.mpr ⟨other, named, values, rfl, rfl, rfl, entered, reads⟩

/-- What is read as a document is read as the same one where the levels are not counted. -/
theorem document_of_document
    (draft : Draft)
    {value : Json}
    (free : ∀ levels, other.Admits levels)
    (decoded : document route draft = .ok value) :
    document other draft = .ok value :=
  (hereditary_free free).of_document draft decoded

variable
  {levels : Nat}
  {source : Json}

/-- A free-form document is read as itself, if at all. -/
theorem eq_of_document_ofJson
    {value : Json}
    (canonical : source.canonical = true)
    (decoded : document route (.ofJson source) = .ok value) :
    value = source := by
  have free := document_of_document _ (fun _ => Route.admits_tree) decoded
  rw [document_ofJson source Route.admits_tree, normal_of_canonical source canonical] at free
  cases free
  rfl

/-- A free-form document is read where it has no more levels than are left, and only there. -/
theorem document_ofJson_iff (canonical : source.canonical = true) :
    (∃ value, document (.text levels) (.ofJson source) = .ok value) ↔ source.depth ≤ levels := by
  constructor
  · rintro ⟨value, decoded⟩
    obtain rfl := eq_of_document_ofJson canonical decoded
    exact (within_of_document _ decoded).shallow
  · intro shallow
    exact ⟨_, document_ofJson source shallow⟩

end Draft

end AgentWire.Json

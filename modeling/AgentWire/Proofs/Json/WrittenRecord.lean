import AgentWire.Proofs.Json.Canonical

namespace AgentWire.Json

/-!
# Written records are read back

The members of a written record are those of its schema, in the same order and some left out.
A decoder restores a value if it gives the value back from its document by every route that
leaves enough levels; so lists are restored if their items are, and records are taken apart
into members that are.
-/

section Members

theorem sublist_member?
    {α : Type}
    (name : String)
    (value : Option α)
    (encode : α → Json) :
    ((member? name value encode).map (·.1)).Sublist [name] := by
  cases value <;> simp [member?]

theorem lookup_member?_self
    {α : Type}
    (name : String)
    (value : Option α)
    (encode : α → Json) :
    (member? name value encode).lookup name = value.map encode := by
  cases value <;> simp [member?]

/-- A member that may be missing is not found under another name. -/
theorem lookup_member?_of_ne
    {α : Type}
    {name other : String}
    (different : other ≠ name)
    (value : Option α)
    (encode : α → Json) :
    (member? name value encode).lookup other = none := by
  have skipped : (other == name) = false := by simpa using different
  cases value <;> simp [member?, List.lookup_cons, skipped]

theorem sublist_listMember?
    {α : Type}
    (name : String)
    (values : List α)
    (encode : α → Json) :
    ((listMember? name values encode).map (·.1)).Sublist [name] := by
  cases values <;> simp [listMember?]

/-- A list that is left out when it is empty is not found under another name. -/
theorem lookup_listMember?_of_ne
    {α : Type}
    {name other : String}
    (different : other ≠ name)
    (values : List α)
    (encode : α → Json) :
    (listMember? name values encode).lookup other = none := by
  have skipped : (other == name) = false := by simpa using different
  cases values <;> simp [listMember?, List.lookup_cons, skipped]

end Members

namespace Decoder

variable
  {α : Type}
  {decoder : Decoder α}
  {route inner : Route}
  {encode : α → Json}

/-- A list is decoded if its items are, one level below it. -/
theorem list_ofItems
    {values : List α}
    (entered : route.enter = .ok inner)
    (decoded : ∀ value ∈ values, decoder inner (.ofJson (encode value)) = .ok value) :
    list decoder route (.ofJson (.array (values.map encode))) = .ok values := by
  have items := items_of_forall decoded 0
  rw [List.map_id'] at items
  rw [Draft.ofJson, Draft.ofItems_eq_map, List.map_map, list, entered]
  simp only [bind, Except.bind, Function.comp_def, items]
  rfl

/-- A decoder that gives a value back from its document, by any route that allows its levels. -/
def Restores
    (decoder : Decoder α)
    (encode : α → Json)
    (value : α) :
    Prop :=
  ∀ route : Route,
    route.Admits (encode value).depth → decoder route (.ofJson (encode value)) = .ok value

/-- A canonical document is given back as it is. -/
theorem restores_json
    {document : Json}
    (canonical : document.canonical = true) :
    json.Restores (·) document := by
  intro route admits
  have read := Draft.document_ofJson document admits
  rwa [normal_of_canonical document canonical] at read

/-- A list is given back if its values are. -/
theorem Restores.list
    {values : List α}
    (each : ∀ value ∈ values, decoder.Restores encode value) :
    (Decoder.list decoder).Restores (fun values => .array (values.map encode)) values := by
  intro route admits
  rw [depth] at admits
  obtain ⟨inner, entered, admits⟩ := admits.enter
  refine list_ofItems entered fun value member => each value member inner (admits.mono ?_)
  exact depthItems_le_iff.mp (Nat.le_refl _) _ (List.mem_map_of_mem member)

/-- A document that may be missing is recovered by a route that admits its levels. -/
theorem recovers_json
    {document : Option Json}
    (settled : Settled document)
    (admits : ∀ present, document = some present → route.Admits present.depth) :
    json.Recovers route (·) document := by
  intro present given
  obtain ⟨canonical, other⟩ := settled present given
  refine ⟨?_, restores_json canonical route (admits present given)⟩
  cases present <;> simp_all [Draft.ofJson]

end Decoder

section Lists

variable
  {α : Type}
  {route : Route}
  {name : String}
  {decoder : Decoder (List α)}
  {encode : α → Json}
  {values : List α}

/-- A list that is left out when it is empty fits the field of its name. -/
theorem Schema.fits_listMember?
    {schema : Schema}
    {field : Field}
    (known : schema.fields.find? (·.name == name) = some field)
    (checked : field.check = decoder.check)
    (read : values ≠ [] → decoder route (.ofJson (.array (values.map encode))) = .ok values) :
    ∀ member ∈ listMember? name values encode, schema.Fits route member := by
  cases values with
  | nil => simp [listMember?]
  | cons first rest =>
      intro member single
      obtain rfl := List.mem_singleton.mp single
      refine ⟨field, known, ?_⟩
      rw [checked]
      exact Decoder.check_of_ok (read (List.cons_ne_nil first rest))

/-- A list that is left out when it is empty is read. -/
theorem Parts.listOrEmpty_listMember?
    {members : List (String × Json)}
    (found : members.lookup name = (listMember? name values encode).lookup name)
    (read : values ≠ [] → decoder route (.ofJson (.array (values.map encode))) = .ok values) :
    (⟨route, noted members⟩ : Parts).listOrEmpty name decoder = .ok values := by
  rw [listOrEmpty, lookup_noted, found]
  cases values with
  | nil => rfl
  | cons first rest => simpa [listMember?] using read

end Lists

end AgentWire.Json

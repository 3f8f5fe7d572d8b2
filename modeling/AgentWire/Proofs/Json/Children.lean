import AgentWire.Proofs.Json.PassOver

namespace AgentWire.Json

/-!
# What stands right below a draft

A record, and a tagged value, gives out only items or members of the draft from which
it was decoded; a list is decoded item by item.
-/

/-- The items of an array, or the values of an object's members. -/
def Draft.children : Draft → List Draft
  | .array items _ => items
  | .object members _ => members.map (·.2)
  | _ => []

namespace Schema

variable
  {schema : Schema}
  {route : Route}

/-- What a visit of an object notes was noted before or is the value of a member. -/
theorem child_of_visit
    {seen parts : List (String × Draft)}
    {members : List (Key × Draft)}
    (visited : schema.visit route seen members = .ok parts) :
    ∀ part ∈ parts, part ∈ seen ∨ part.2 ∈ members.map (·.2) := by
  induction members generalizing seen with
  | nil =>
      rw [visit] at visited
      cases visited
      simp
  | cons member rest inductionHypothesis =>
      obtain ⟨key, value⟩ := member
      intro part noted
      cases key with
      | spoilt flaw => cases visited
      | name name =>
          rw [visit] at visited
          split at visited
          · rw [check_bind_eq_ok] at visited
            exact (inductionHypothesis visited.2 part noted).imp_right (List.mem_cons_of_mem _)
          · split at visited
            · cases visited
            · simp only [check_bind_eq_ok] at visited
              rcases inductionHypothesis visited.2 part noted with earlier | later
              · rcases List.mem_cons.mp earlier with rfl | earlier
                · exact .inr List.mem_cons_self
                · exact .inl earlier
              · exact .inr (List.mem_cons_of_mem _ later)

/-- What a visit of an array notes was noted before or is an item. -/
theorem child_of_visitItems
    {stop : Option Break}
    {index : Nat}
    {seen parts : List (String × Draft)}
    {fields : List Field}
    {items : List Draft}
    (visited : schema.visitItems route stop index seen fields items = .ok parts) :
    ∀ part ∈ parts, part ∈ seen ∨ part.2 ∈ items := by
  induction fields generalizing index seen items with
  | nil =>
      simp only [visitItems, check_bind_eq_ok] at visited
      obtain ⟨-, made⟩ := visited
      cases made
      exact fun part noted => .inl (List.mem_reverse.mp noted)
  | cons field fields inductionHypothesis =>
      intro part noted
      cases items with
      | nil =>
          simp only [visitItems, check_bind_eq_ok] at visited
          obtain ⟨-, visited⟩ := visited
          split at visited
          · exact inductionHypothesis visited part noted
          · cases visited
      | cons value rest =>
          simp only [visitItems, check_bind_eq_ok] at visited
          rcases inductionHypothesis visited.2 part noted with earlier | later
          · rcases List.mem_cons.mp earlier with rfl | earlier
            · exact .inr List.mem_cons_self
            · exact .inl earlier
          · exact .inr (List.mem_cons_of_mem _ later)

variable
  {draft : Draft}
  {parts : Parts}

/-- Every part that a record notes stands below its draft. -/
theorem child_of_parts (decoded : schema.parts route draft = .ok parts) :
    ∀ part ∈ parts.members, part.2 ∈ draft.children := by
  intro part noted
  cases draft with
  | object members stop =>
      simp only [Schema.parts, bind_eq_ok] at decoded
      obtain ⟨inner, -, seen, visited, ⟨⟩, -, made⟩ := decoded
      cases made
      exact (child_of_visit visited part noted).resolve_left List.not_mem_nil
  | array items stop =>
      simp only [Schema.parts, bind_eq_ok] at decoded
      obtain ⟨inner, -, seen, visited, made⟩ := decoded
      cases made
      exact (child_of_visitItems visited part noted).resolve_left List.not_mem_nil
  | null | bool | number | string | spoilt | broken => exact absurd decoded Draft.refuse_ne_ok

/-- The parts of a record are read by the route behind its bracket. -/
theorem route_of_parts
    {inner : Route}
    (entered : route.enter = .ok inner)
    (decoded : schema.parts route draft = .ok parts) :
    parts.route = inner := by
  cases draft with
  | object | array =>
      simp only [Schema.parts, bind_eq_ok, entered] at decoded
      obtain ⟨inner, ⟨⟩, decoded⟩ := decoded
      grind
  | null | bool | number | string | spoilt | broken => exact absurd decoded Draft.refuse_ne_ok

variable
  {α : Type}
  {name : String}
  {decoder : Decoder α}
  {value : α}

/-- A member that was read stands below the draft of its record. -/
theorem child_of_required
    (decoded : schema.parts route draft = .ok parts)
    (read : parts.required name decoder = .ok value) :
    ∃ child ∈ draft.children, decoder parts.route child = .ok value := by
  obtain ⟨child, noted, read⟩ := Parts.required_eq_ok read
  exact ⟨child, child_of_parts decoded _ noted, read⟩

end Schema

namespace Decoder

section Lists

variable
  {α : Type}
  {decoder : Decoder α}
  {route : Route}

/-- A list is decoded item by item. -/
theorem items_eq_ok
    {index : Nat}
    {drafts : List Draft}
    {values : List α} :
    items decoder route index drafts = .ok values ↔
      List.Forall₂ (fun draft value => decoder route draft = .ok value) drafts values := by
  induction drafts generalizing index values with
  | nil => simp [items, eq_comm]
  | cons draft rest inductionHypothesis =>
      simp only [items, bind_eq_ok, Reading.within_eq_ok, inductionHypothesis,
        List.forall₂_cons_left_iff]
      constructor
      · rintro ⟨first, readFirst, others, readOthers, made⟩
        cases made
        exact ⟨first, others, readFirst, readOthers, rfl⟩
      · rintro ⟨first, others, readFirst, readOthers, rfl⟩
        exact ⟨first, readFirst, others, readOthers, rfl⟩

/-- A list is decoded from a closed array, item by item, one level below it. -/
theorem list_eq_ok
    {draft : Draft}
    {values : List α} :
    list decoder route draft = .ok values ↔
      ∃ inner drafts,
        draft = .array drafts none ∧ route.enter = .ok inner ∧
          List.Forall₂ (fun draft value => decoder inner draft = .ok value) drafts values := by
  cases draft with
  | array drafts stop =>
      simp only [list, bind_eq_ok, items_eq_ok]
      constructor
      · rintro ⟨inner, entered, found, read, ⟨⟩, closed, made⟩
        cases made
        obtain rfl := Draft.closed_eq_ok.mp closed
        exact ⟨inner, drafts, rfl, entered, read⟩
      · rintro ⟨inner, found, same, entered, read⟩
        cases same
        exact ⟨inner, entered, values, read, (), rfl, rfl⟩
  | null | bool | number | string | object | spoilt | broken =>
      exact iff_of_false Draft.refuse_ne_ok (by rintro ⟨_, _, ⟨⟩, -⟩)

end Lists

variable
  {tag : String}
  {known : List String}
  {route : Route}

/-- Only members of a tagged value are set aside. -/
theorem mem_of_visitTagged
    {chosen variant : Option String}
    {kept parts members : List (Key × Draft)}
    (visited : visitTagged tag known route chosen kept members = .ok (variant, parts)) :
    ∀ member ∈ parts, member ∈ kept ∨ member ∈ members := by
  induction members generalizing chosen kept with
  | nil =>
      rw [visitTagged] at visited
      cases visited
      simp
  | cons member rest inductionHypothesis =>
      obtain ⟨key, value⟩ := member
      intro part aside
      cases key with
      | spoilt flaw => cases visited
      | name name =>
          simp only [visitTagged] at visited
          split at visited
          · cases chosen with
            | some chosen => cases visited
            | none =>
                rw [bind_eq_ok] at visited
                obtain ⟨found, -, visited⟩ := visited
                exact (inductionHypothesis visited part aside).imp_right (List.mem_cons_of_mem _)
          · rw [bind_eq_ok] at visited
            obtain ⟨found, -, visited⟩ := visited
            rcases inductionHypothesis visited part aside with earlier | later
            · rcases List.mem_cons.mp earlier with rfl | earlier
              · exact .inr List.mem_cons_self
              · exact .inl earlier
            · exact .inr (List.mem_cons_of_mem _ later)

/-- What stands below the parts of a tagged value stands below the value. -/
theorem child_of_tagged
    {title name : String}
    {draft rest : Draft}
    (decoded : tagged title tag known route draft = .ok (name, rest)) :
    ∀ child ∈ rest.children, child ∈ draft.children := by
  cases draft with
  | object members stop =>
      simp only [tagged, bind_eq_ok] at decoded
      obtain ⟨inner, -, ⟨variant, kept⟩, visited, ⟨⟩, -, made⟩ := decoded
      cases variant with
      | none => cases made
      | some variant =>
          cases made
          intro child below
          obtain ⟨member, aside, rfl⟩ := List.mem_map.mp below
          have among := (mem_of_visitTagged visited member aside).resolve_left List.not_mem_nil
          exact List.mem_map_of_mem among
  | array items stop =>
      cases items with
      | nil =>
          simp only [tagged, bind_eq_ok] at decoded
          obtain ⟨inner, -, -, -, missing⟩ := decoded
          cases missing
      | cons first rest =>
          simp only [tagged, bind_eq_ok] at decoded
          obtain ⟨inner, -, name, -, values, -, ⟨⟩, -, made⟩ := decoded
          cases made
          exact fun child below => List.mem_cons_of_mem _ below
  | null | bool | number | string | spoilt | broken => exact absurd decoded Draft.refuse_ne_ok

/-- All that stands below a tagged value is read as documents, one level below it. -/
theorem document_of_child_of_tagged
    {title : String}
    {draft : Draft}
    {parts : String × Draft}
    (decoded : tagged title tag known route draft = .ok parts) :
    ∃ inner,
      route.enter = .ok inner ∧
        ∀ child ∈ draft.children, ∃ document, json inner child = .ok document := by
  cases draft with
  | object members stop =>
      obtain ⟨document, read⟩ := document_of_tagged decoded
      obtain ⟨inner, named, values, rfl, -, -, entered, reads⟩ :=
        Draft.document_object_eq_ok.mp read
      refine ⟨inner, entered, fun child below => ?_⟩
      rw [Draft.children, Draft.keyed, List.map_map] at below
      obtain ⟨member, among, rfl⟩ := List.mem_map.mp below
      obtain ⟨value, -, -, read⟩ := exists_right_of_forall₂ reads member among
      exact ⟨value.2, read⟩
  | array items stop =>
      obtain ⟨inner, entered, -, documents⟩ := documents_of_tagged decoded
      exact ⟨inner, entered, documents⟩
  | null | bool | number | string | spoilt | broken => exact absurd decoded Draft.refuse_ne_ok

end Decoder

end AgentWire.Json

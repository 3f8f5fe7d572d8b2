import AgentWire.Proofs.Json.Record
import Mathlib.Data.List.Forall2

namespace AgentWire.Json

/-!
# What is read as a document

A draft that is read as a document was closed everywhere, its names can be read, and its
parts are read one by one.  What passes from the parts to the whole (`Hereditary`) holds of
everything that is read so.
-/

section Related

variable
  {α β : Type}
  {relation : α → β → Prop}
  {left : List α}
  {right : List β}

theorem exists_right_of_forall₂
    (related : List.Forall₂ relation left right) :
    ∀ first ∈ left, ∃ second ∈ right, relation first second := by
  induction related with
  | nil => simp
  | cons holds _ inductionHypothesis =>
      intro first member
      rcases List.mem_cons.mp member with rfl | member
      · exact ⟨_, List.mem_cons_self, holds⟩
      · obtain ⟨second, among, holds⟩ := inductionHypothesis first member
        exact ⟨second, List.mem_cons_of_mem _ among, holds⟩

theorem exists_left_of_forall₂
    (related : List.Forall₂ relation left right) :
    ∀ second ∈ right, ∃ first ∈ left, relation first second :=
  exists_right_of_forall₂ related.flip

end Related

namespace Draft

variable
  {route : Route}
  {value : Json}
  {stop : Option Break}

theorem closed_eq_ok : closed stop = .ok () ↔ stop = none := by
  cases stop <;> simp [closed, Reading.flawed]

/-- Items are read as documents one by one. -/
theorem documentItems_eq_ok
    {index : Nat}
    {items : List Draft}
    {values : List Json} :
    documentItems route index items = .ok values ↔
      List.Forall₂ (fun item value => document route item = .ok value) items values := by
  induction items generalizing index values with
  | nil => simp [documentItems, eq_comm]
  | cons item rest inductionHypothesis =>
      simp only [documentItems, bind_eq_ok, Reading.within_eq_ok, inductionHypothesis,
        List.forall₂_cons_left_iff]
      constructor
      · rintro ⟨first, readFirst, others, readOthers, made⟩
        cases made
        exact ⟨first, others, readFirst, readOthers, rfl⟩
      · rintro ⟨first, others, readFirst, readOthers, rfl⟩
        exact ⟨first, readFirst, others, readOthers, rfl⟩

/-- Members that are read as documents. -/
def Reads
    (route : Route)
    (named : List (String × Draft))
    (values : List (String × Json)) :
    Prop :=
  List.Forall₂
    (fun member value => member.1 = value.1 ∧ document route member.2 = .ok value.2) named values

/-- Members are read as documents if all their names can be read. -/
theorem documentMembers_eq_ok
    {members : List (Key × Draft)}
    {values : List (String × Json)} :
    documentMembers route members = .ok values ↔
      ∃ named, members = keyed named ∧ Reads route named values := by
  induction members generalizing values with
  | nil =>
      constructor
      · intro read
        rw [documentMembers] at read
        cases read
        exact ⟨[], rfl, .nil⟩
      · rintro ⟨named, empty, reads⟩
        cases reads with
        | nil => rw [documentMembers]
        | cons => cases empty
  | cons member rest inductionHypothesis =>
      obtain ⟨key, draft⟩ := member
      cases key with
      | spoilt flaw =>
          refine iff_of_false (by rw [documentMembers]; rintro ⟨⟩) ?_
          rintro ⟨_ | ⟨first, others⟩, ⟨⟩, -⟩
      | name name =>
          simp only [documentMembers, bind_eq_ok, inMember_eq_ok, inductionHypothesis]
          constructor
          · rintro ⟨first, readFirst, others, ⟨named, rfl, reads⟩, made⟩
            cases made
            exact ⟨(name, draft) :: named, rfl, .cons ⟨rfl, readFirst⟩ reads⟩
          · rintro ⟨named, keyed, reads⟩
            cases reads with
            | nil => cases keyed
            | @cons first other firsts others read reads =>
                obtain ⟨title, held⟩ := first
                obtain ⟨otherTitle, otherHeld⟩ := other
                cases keyed
                obtain ⟨rfl, read⟩ := read
                exact ⟨otherHeld, read, others, ⟨firsts, rfl, reads⟩, rfl⟩

/-- An array is a document if it is closed and its items are documents. -/
theorem document_array_eq_ok
    {items : List Draft} :
    document route (.array items stop) = .ok value ↔
      ∃ inner values,
        stop = none ∧ value = .array values ∧ route.enter = .ok inner ∧
          List.Forall₂ (fun item value => document inner item = .ok value) items values := by
  simp only [document, bind_eq_ok, documentItems_eq_ok]
  constructor
  · rintro ⟨inner, entered, values, read, ⟨⟩, closed, made⟩
    cases made
    exact ⟨inner, values, closed_eq_ok.mp closed, rfl, entered, read⟩
  · rintro ⟨inner, values, rfl, rfl, entered, read⟩
    exact ⟨inner, entered, values, read, (), rfl, rfl⟩

/-- An object is a document if it is closed, its names can be read and its values are documents. -/
theorem document_object_eq_ok
    {members : List (Key × Draft)} :
    document route (.object members stop) = .ok value ↔
      ∃ inner named values,
        members = keyed named ∧ stop = none ∧ value = Json.ofMembers values ∧
          route.enter = .ok inner ∧ Reads inner named values := by
  simp only [document, bind_eq_ok, closedMembers, Reading.within_eq_ok,
    documentMembers_eq_ok]
  constructor
  · rintro ⟨inner, entered, values, ⟨named, rfl, reads⟩, ⟨⟩, closed, made⟩
    cases made
    exact ⟨inner, named, values, rfl, closed_eq_ok.mp closed, rfl, entered, reads⟩
  · rintro ⟨inner, named, values, rfl, rfl, rfl, entered, reads⟩
    exact ⟨inner, entered, values, ⟨named, rfl, reads⟩, (), rfl, rfl⟩

/--
What holds of flat documents, and of arrays and objects if it holds of their parts, where
these are read behind the bracket.
-/
structure Hereditary (holds : Route → Draft → Json → Prop) : Prop where
  flat : ∀ route document, document.depth = 0 → holds route (.ofJson document) document
  array :
    ∀ route inner items values, route.enter = .ok inner →
      List.Forall₂ (holds inner) items values → holds route (.array items none) (.array values)
  object :
    ∀ route inner named values, route.enter = .ok inner →
      List.Forall₂
        (fun member value => member.1 = value.1 ∧ holds inner member.2 value.2) named values →
          holds route (.object (keyed named) none) (Json.ofMembers values)

variable {holds : Route → Draft → Json → Prop}

mutual

/-- A hereditary property holds of everything that is read as a document. -/
theorem Hereditary.of_document
    (hereditary : Hereditary holds)
    (draft : Draft)
    {route : Route}
    {value : Json}
    (decoded : document route draft = .ok value) :
    holds route draft value := by
  cases draft with
  | array items stop =>
      obtain ⟨inner, values, rfl, rfl, entered, read⟩ := document_array_eq_ok.mp decoded
      exact hereditary.array route inner items values entered (hereditary.of_items items read)
  | object members stop =>
      obtain ⟨inner, named, values, same, rfl, rfl, entered, reads⟩ :=
        document_object_eq_ok.mp decoded
      rw [same]
      exact hereditary.object route inner named values entered
        (hereditary.of_members members same reads)
  | null =>
      rw [document] at decoded
      cases decoded
      exact hereditary.flat route .null rfl
  | bool held =>
      rw [document] at decoded
      cases decoded
      exact hereditary.flat route (.bool held) rfl
  | number held =>
      rw [document] at decoded
      cases decoded
      exact hereditary.flat route (.number held) rfl
  | string held =>
      rw [document] at decoded
      cases decoded
      exact hereditary.flat route (.string held) rfl
  | spoilt | broken =>
      rw [document] at decoded
      cases decoded

/-- What is hereditary holds of items that are read as documents. -/
theorem Hereditary.of_items
    (hereditary : Hereditary holds)
    (items : List Draft)
    {route : Route}
    {values : List Json}
    (read : List.Forall₂ (fun item value => document route item = .ok value) items values) :
    List.Forall₂ (holds route) items values := by
  cases items with
  | nil =>
      cases read
      exact .nil
  | cons item rest =>
      cases read with
      | cons first others =>
          exact .cons (hereditary.of_document item first) (hereditary.of_items rest others)

/-- What is hereditary holds of members that are read as documents. -/
theorem Hereditary.of_members
    (hereditary : Hereditary holds)
    (members : List (Key × Draft))
    {route : Route}
    {named : List (String × Draft)}
    {values : List (String × Json)}
    (same : members = keyed named)
    (reads : Reads route named values) :
    List.Forall₂ (fun member value => member.1 = value.1 ∧ holds route member.2 value.2)
      named values := by
  cases members with
  | nil =>
      cases reads with
      | nil => exact .nil
      | cons => cases same
  | cons member rest =>
      obtain ⟨key, draft⟩ := member
      cases reads with
      | nil => cases same
      | @cons first value others values read reads =>
          obtain ⟨both, others⟩ := List.cons_eq_cons.mp same
          have drafts : first.2 = draft := (congrArg Prod.snd both).symm
          have held := hereditary.of_document draft (drafts ▸ read.2)
          exact .cons ⟨read.1, drafts ▸ held⟩ (hereditary.of_members rest others reads)

end

end Draft

end AgentWire.Json

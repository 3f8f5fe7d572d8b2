import AgentWire.Proofs.Json.Canonical
import AgentWire.Proofs.Json.Children

namespace AgentWire.Json

/-!
# How far a document reaches

What a decoder reads of an array or object stands one level below it.  So the depth of a
document that is decoded from a text is bounded by the levels that the text may open, and it
holds no doubles if the text holds none (`Within`).
-/

/-- A document of no more than some levels, and if it is demanded without doubles. -/
structure Within (whole : Prop) (levels : Nat) (document : Json) : Prop where
  shallow : document.depth ≤ levels
  wholeNumbers : whole → document.wholeNumbers = true

variable
  {whole : Prop}
  {levels : Nat}

theorem Within.imp
    {stronger weaker : Prop}
    {document : Json}
    (within : document.Within weaker levels)
    (imp : stronger → weaker) :
    document.Within stronger levels :=
  ⟨within.shallow, fun asked => within.wholeNumbers (imp asked)⟩

theorem wholeNumbersItems_iff {items : List Json} :
    wholeNumbersItems items = true ↔ ∀ item ∈ items, item.wholeNumbers = true := by
  induction items with
  | nil => simp [wholeNumbersItems]
  | cons item rest inductionHypothesis =>
      rw [wholeNumbersItems, Bool.and_eq_true, inductionHypothesis, List.forall_mem_cons]

theorem wholeNumbersMembers_iff {members : List (String × Json)} :
    wholeNumbersMembers members = true ↔ ∀ member ∈ members, member.2.wholeNumbers = true := by
  induction members with
  | nil => simp [wholeNumbersMembers]
  | cons member rest inductionHypothesis =>
      rw [wholeNumbersMembers, Bool.and_eq_true, inductionHypothesis, List.forall_mem_cons]

/-- An array has one level more than its items. -/
theorem within_array {items : List Json} :
    (array items).Within whole levels ↔
      ∃ inner, levels = inner + 1 ∧ ∀ item ∈ items, item.Within whole inner := by
  constructor
  · rintro ⟨shallow, none⟩
    rw [depth] at shallow
    rw [wholeNumbers] at none
    obtain ⟨inner, rfl⟩ := Nat.exists_eq_add_of_le' (Nat.le_trans (Nat.succ_pos _) shallow)
    refine ⟨inner, rfl, fun item member => ⟨?_, fun asked => ?_⟩⟩
    · exact depthItems_le_iff.mp (Nat.le_of_succ_le_succ shallow) item member
    · exact wholeNumbersItems_iff.mp (none asked) item member
  · rintro ⟨inner, rfl, within⟩
    refine ⟨?_, fun asked => ?_⟩
    · rw [depth]
      exact Nat.succ_le_succ (depthItems_le_iff.mpr fun item member => (within item member).shallow)
    · rw [wholeNumbers]
      exact wholeNumbersItems_iff.mpr fun item member => (within item member).wholeNumbers asked

/-- An object has one level more than its members. -/
theorem within_object {members : List (String × Json)} :
    (object members).Within whole levels ↔
      ∃ inner, levels = inner + 1 ∧ ∀ member ∈ members, member.2.Within whole inner := by
  constructor
  · rintro ⟨shallow, none⟩
    rw [depth] at shallow
    rw [wholeNumbers] at none
    obtain ⟨inner, rfl⟩ := Nat.exists_eq_add_of_le' (Nat.le_trans (Nat.succ_pos _) shallow)
    refine ⟨inner, rfl, fun member among => ⟨?_, fun asked => ?_⟩⟩
    · exact depthMembers_le_iff.mp (Nat.le_of_succ_le_succ shallow) member among
    · exact wholeNumbersMembers_iff.mp (none asked) member among
  · rintro ⟨inner, rfl, within⟩
    refine ⟨?_, fun asked => ?_⟩
    · rw [depth]
      exact Nat.succ_le_succ
        (depthMembers_le_iff.mpr fun member among => (within member among).shallow)
    · rw [wholeNumbers]
      exact wholeNumbersMembers_iff.mpr fun member among => (within member among).wholeNumbers asked

namespace Draft

mutual

/-- A draft without doubles. -/
def wholeNumbers : Draft → Bool
  | .number (.double _) => false
  | .array items _ => wholeNumbersItems items
  | .object members _ => wholeNumbersMembers members
  | _ => true

/-- No draft of a list holds a double. -/
def wholeNumbersItems : List Draft → Bool
  | [] => true
  | item :: rest => wholeNumbers item && wholeNumbersItems rest

/-- No member of a list holds a double. -/
def wholeNumbersMembers : List (Key × Draft) → Bool
  | [] => true
  | (_, value) :: rest => wholeNumbers value && wholeNumbersMembers rest

end

theorem wholeNumbersItems_iff {items : List Draft} :
    wholeNumbersItems items = true ↔ ∀ item ∈ items, item.wholeNumbers = true := by
  induction items with
  | nil => simp [wholeNumbersItems]
  | cons item rest inductionHypothesis =>
      rw [wholeNumbersItems, Bool.and_eq_true, inductionHypothesis, List.forall_mem_cons]

theorem wholeNumbersMembers_iff {members : List (Key × Draft)} :
    wholeNumbersMembers members = true ↔ ∀ member ∈ members, member.2.wholeNumbers = true := by
  induction members with
  | nil => simp [wholeNumbersMembers]
  | cons member rest inductionHypothesis =>
      rw [wholeNumbersMembers, Bool.and_eq_true, inductionHypothesis, List.forall_mem_cons]

/-- A document is within the levels that its route allows if its parts are. -/
theorem hereditary_within :
    Hereditary fun route draft document =>
      ∀ levels, route = .text levels → document.Within (draft.wholeNumbers = true) levels where
  flat _ document flat levels _ := by
    cases document with
    | number number =>
        refine ⟨by simp [depth], fun whole => ?_⟩
        cases number with
        | integer value => rfl
        | double value => cases whole
    | null | bool | string => exact ⟨by simp [depth], fun _ => rfl⟩
    | array | object => cases flat
  array route inner items values entered within levels text := by
    cases text
    cases levels with
    | zero => cases entered
    | succ levels =>
        cases entered
        rw [wholeNumbers, wholeNumbersItems_iff]
        refine within_array.mpr ⟨levels, rfl, fun value among => ?_⟩
        obtain ⟨item, member, within⟩ := exists_left_of_forall₂ within value among
        exact (within levels rfl).imp fun whole => whole item member
  object route inner named values entered within levels text := by
    cases text
    cases levels with
    | zero => cases entered
    | succ levels =>
        cases entered
        rw [wholeNumbers, wholeNumbersMembers_iff]
        refine within_object.mpr ⟨levels, rfl, fun value among => ?_⟩
        obtain ⟨member, inside, -, within⟩ :=
          exists_left_of_forall₂ within value (Dictionary.mem_of_mem_ofEntries among)
        refine (within levels rfl).imp fun whole => ?_
        exact whole (.name member.1, member.2) (List.mem_map_of_mem inside)

/-- A document is nested no deeper than its text may be, and has doubles only of its text. -/
theorem within_of_document
    (draft : Draft)
    {levels : Nat}
    {document : Json}
    (decoded : Draft.document (.text levels) draft = .ok document) :
    document.Within (draft.wholeNumbers = true) levels :=
  hereditary_within.of_document draft decoded levels rfl

/-- The draft of a free-form document of no more than some levels. -/
def Holds
    (whole : Prop)
    (levels : Nat)
    (draft : Draft) :
    Prop :=
  ∃ document, draft = .ofJson document ∧ document.canonical = true ∧ document.Within whole levels

/-- What stands below a draft of a document is the draft of a document. -/
theorem Holds.child
    {whole : Prop}
    {levels : Nat}
    {draft child : Draft}
    (holds : draft.Holds whole levels)
    (below : child ∈ draft.children) :
    ∃ inner, levels = inner + 1 ∧ child.Holds whole inner := by
  obtain ⟨document, rfl, canonical, within⟩ := holds
  cases document with
  | array items =>
      obtain ⟨inner, rfl, inside⟩ := within_array.mp within
      rw [ofJson, children, ofItems_eq_map] at below
      obtain ⟨item, among, rfl⟩ := List.mem_map.mp below
      rw [Json.canonical, canonicalItems_iff] at canonical
      exact ⟨inner, rfl, item, rfl, canonical item among, inside item among⟩
  | object members =>
      obtain ⟨inner, rfl, inside⟩ := within_object.mp within
      rw [ofJson, children, ofMembers_eq_map, List.map_map] at below
      obtain ⟨member, among, rfl⟩ := List.mem_map.mp below
      rw [Json.canonical, Bool.and_eq_true, canonicalMembers_iff] at canonical
      exact ⟨inner, rfl, member.2, rfl, canonical.2 member among, inside member among⟩
  | null | bool | number | string => cases below

/-- The items of a draft that holds a document hold documents of one level less. -/
theorem Holds.items
    {whole : Prop}
    {levels : Nat}
    {items : List Draft}
    {stop : Option Break}
    (holds : (array items stop).Holds whole levels) :
    ∃ inner, levels = inner + 1 ∧ ∀ item ∈ items, item.Holds whole inner := by
  have same := holds
  obtain ⟨document, made, -, within⟩ := holds
  cases document with
  | array documents =>
      obtain ⟨inner, rfl, -⟩ := within_array.mp within
      refine ⟨inner, rfl, fun item among => ?_⟩
      obtain ⟨other, ⟨⟩, held⟩ := same.child among
      exact held
  | null | bool | number | string | object => cases made

/-- A document that is read from a draft is within the levels of the one that it holds. -/
theorem Holds.read
    {whole : Prop}
    {levels : Nat}
    {draft : Draft}
    {route : Route}
    {value : Json}
    (holds : draft.Holds whole levels)
    (free : ∀ levels, route.Admits levels)
    (decoded : Decoder.json route draft = .ok value) :
    value.Within whole levels := by
  obtain ⟨document, rfl, canonical, within⟩ := holds
  have read := document_ofJson document (free document.depth)
  rw [Json.normal_of_canonical document canonical, ← Decoder.json, decoded] at read
  cases read
  exact within

end Draft

end AgentWire.Json

import AgentWire.Proofs.Json.Children

namespace AgentWire.Json

/-!
# Objects that name no member twice

Reading such an object as a record, or as a tagged value, comes down to looking its
members up: the order in which they stand does not matter.
-/

namespace Draft

/-- The value of the first member with a name. -/
def member? (draft : Draft) (name : String) : Option Draft :=
  match draft with
  | .object members _ => members.lookup (.name name)
  | _ => none

/-- The names of members, as far as they can be read. -/
def memberNames (members : List (Key × Draft)) : List String :=
  members.filterMap fun member =>
    match member.1 with
    | .name name => some name
    | .spoilt _ => none

mutual

/-- A draft in which no object names a member twice. -/
def distinct : Draft → Bool
  | .array items _ => distinctItems items
  | .object members _ => decide (memberNames members).Nodup && distinctMembers members
  | _ => true

/-- No object in these items names a member twice. -/
def distinctItems : List Draft → Bool
  | [] => true
  | item :: rest => distinct item && distinctItems rest

/-- No object in these members names a member twice. -/
def distinctMembers : List (Key × Draft) → Bool
  | [] => true
  | (_, value) :: rest => distinct value && distinctMembers rest

end

variable
  {named : List (String × Draft)}
  {name : String}

theorem memberNames_keyed : memberNames (keyed named) = named.map (·.1) := by
  rw [memberNames, keyed, List.filterMap_map, ← List.filterMap_eq_map]
  rfl

theorem lookup_keyed : (keyed named).lookup (.name name) = named.lookup name := by
  induction named with
  | nil => rfl
  | cons member rest inductionHypothesis =>
      obtain ⟨other, value⟩ := member
      by_cases same : name = other
      · simp [keyed, same]
      · have skipped : (name == other) = false := by simpa using same
        have apart : (Key.name name == Key.name other) = false := by simpa using same
        simpa [keyed, List.lookup_cons, skipped, apart] using inductionHypothesis

theorem distinctItems_iff {items : List Draft} :
    distinctItems items = true ↔ ∀ item ∈ items, item.distinct = true := by
  induction items with
  | nil => simp [distinctItems]
  | cons item rest inductionHypothesis => simp [distinctItems, inductionHypothesis]

theorem distinctMembers_iff {members : List (Key × Draft)} :
    distinctMembers members = true ↔ ∀ member ∈ members, member.2.distinct = true := by
  induction members with
  | nil => simp [distinctMembers]
  | cons member rest inductionHypothesis => simp [distinctMembers, inductionHypothesis]

end Draft

/-- Of members with different names, a name finds each. -/
theorem lookup_eq_some_iff
    {α : Type}
    {members : List (String × α)}
    {name : String}
    {value : α}
    (different : (members.map (·.1)).Nodup) :
    members.lookup name = some value ↔ (name, value) ∈ members := by
  induction members with
  | nil => simp
  | cons member rest inductionHypothesis =>
      obtain ⟨other, held⟩ := member
      have others := names_ne_of_nodup different
      have different := (List.nodup_cons.mp different).2
      by_cases same : name = other
      · subst same
        have absent : (name, value) ∉ rest := fun inside => others _ inside rfl
        simp [absent, eq_comm]
      · have skipped : (name == other) = false := by simpa using same
        simpa [List.lookup_cons, skipped, same] using inductionHypothesis different

/-- What a name finds in an object is an object that names no member twice either. -/
theorem Draft.distinct_of_lookup
    {named : List (String × Draft)}
    {name : String}
    {draft : Draft}
    (distinct : (object (keyed named) none).distinct = true)
    (found : named.lookup name = some draft) :
    draft.distinct = true := by
  rw [Draft.distinct, Bool.and_eq_true, decide_eq_true_eq, memberNames_keyed] at distinct
  have among := (lookup_eq_some_iff distinct.1).mp found
  exact distinctMembers_iff.mp distinct.2 (.name name, draft) (List.mem_map.mpr ⟨_, among, rfl⟩)

namespace Decoder

variable
  {tag variant : String}
  {known : List String}
  {route inner : Route}
  {named : List (String × Draft)}

/-- A string names a variant if it is one of the known names. -/
theorem variantName_string {name : String} :
    variantName known route (.string name) = .ok variant ↔ name ∈ known ∧ variant = name := by
  by_cases among : name ∈ known <;> simp [variantName, among, Reading.mismatched, eq_comm]

/-- In a text, only a string names a variant. -/
theorem variantName_text
    {levels : Nat}
    {draft : Draft} :
    variantName known (.text levels) draft = .ok variant ↔
      draft = .string variant ∧ variant ∈ known := by
  cases draft with
  | string name =>
      rw [variantName_string]
      constructor
      · rintro ⟨among, rfl⟩
        exact ⟨rfl, among⟩
      · rintro ⟨⟨⟩, among⟩
        exact ⟨among, rfl⟩
  | number number => cases number <;> exact iff_of_false Draft.refuse_ne_ok (by rintro ⟨⟨⟩, -⟩)
  | null | bool | array | object | spoilt | broken =>
      exact iff_of_false Draft.refuse_ne_ok (by rintro ⟨⟨⟩, -⟩)

/-- Of members with different names, one is the tag and the others are set aside. -/
theorem visitTagged_eq_ok
    (different : (named.map (·.1)).Nodup)
    (readable : ∀ member ∈ named, ∃ document, json route member.2 = .ok document)
    (kept : List (Key × Draft))
    {parts : List (Key × Draft)} :
    visitTagged tag known route none kept (Draft.keyed named) = .ok (some variant, parts) ↔
      (∃ draft, named.lookup tag = some draft ∧ variantName known route draft = .ok variant) ∧
        parts = kept.reverse ++ Draft.keyed (named.filter (·.1 != tag)) := by
  induction named generalizing kept with
  | nil => simp [visitTagged]
  | cons member rest inductionHypothesis =>
      obtain ⟨name, value⟩ := member
      have others := names_ne_of_nodup different
      have different := (List.nodup_cons.mp different).2
      obtain ⟨⟨document, read⟩, readable⟩ := List.forall_mem_cons.mp readable
      rw [Draft.keyed_cons, visitTagged]
      by_cases same : name = tag
      · subst same
        have aside : ((name, value) :: rest).filter (·.1 != name) = rest := by
          simpa using others
        simp only [if_true, bind_eq_ok, Draft.inMember_eq_ok,
          visitTagged_keyed others readable]
        rw [aside, List.lookup_cons_self]
        constructor
        · rintro ⟨chosen, read, made⟩
          cases made
          exact ⟨⟨value, rfl, read⟩, rfl⟩
        · rintro ⟨⟨draft, ⟨⟩, read⟩, rfl⟩
          exact ⟨variant, read, rfl⟩
      · have skipped : (tag == name) = false := by simpa using Ne.symm same
        have aside :
            ((name, value) :: rest).filter (·.1 != tag) =
              (name, value) :: rest.filter (·.1 != tag) := by
          simp [same]
        rw [if_neg same, read, Draft.inMember_ok, List.lookup_cons, skipped, aside]
        have further := inductionHypothesis different readable ((.name name, value) :: kept)
        simpa [bind, Except.bind] using further

/-- An object whose members have different names has the variant that its tag names. -/
theorem tagged_keyed
    (title : String)
    (entered : route.enter = .ok inner)
    (different : (named.map (·.1)).Nodup)
    (readable : ∀ member ∈ named, ∃ document, json inner member.2 = .ok document)
    {rest : Draft} :
    tagged title tag known route (.object (Draft.keyed named) none) = .ok (variant, rest) ↔
      (∃ draft, named.lookup tag = some draft ∧ variantName known inner draft = .ok variant) ∧
        rest = .object (Draft.keyed (named.filter (·.1 != tag))) none := by
  constructor
  · intro decoded
    simp only [tagged, bind_eq_ok, entered] at decoded
    obtain ⟨_, ⟨⟩, ⟨chosen, parts⟩, visited, -, -, made⟩ := decoded
    cases chosen with
    | none => cases made
    | some chosen =>
        cases made
        obtain ⟨found, rfl⟩ := (visitTagged_eq_ok different readable []).mp visited
        exact ⟨found, rfl⟩
  · rintro ⟨found, rfl⟩
    have visited :
        visitTagged tag known inner none [] (Draft.keyed named) =
          .ok (some variant, Draft.keyed (named.filter (·.1 != tag))) :=
      (visitTagged_eq_ok different readable []).mpr ⟨found, rfl⟩
    simp only [tagged, entered, bind, Except.bind, visited]
    rfl

end Decoder

end AgentWire.Json

import AgentWire.Json.Record
import AgentWire.Proofs.Json.Decoder

namespace AgentWire.Json

/-!
# Reading the parts of records

One lemma for each thing that a decoder of records meets: a known member, the
end of the members, the tag of a variant and a member that is set aside.
-/

namespace Schema

variable
  {schema : Schema}
  {route inner : Route}
  {seen : List (String × Draft)}
  {rest : List (Key × Draft)}
  {name : String}
  {value : Draft}
  {field : Field}

/-- A known member that fits is noted. -/
theorem visit_known
    (known : schema.fields.find? (·.name == name) = some field)
    (new : seen.any (·.1 == name) = false)
    (fits : field.check route value = .ok ()) :
    schema.visit route seen ((.name name, value) :: rest) =
      schema.visit route ((name, value) :: seen) rest := by
  simp [visit, known, new, fits, bind, Except.bind]

/-- Behind the last member, all members that were noted are there. -/
theorem visit_nil : schema.visit route seen [] = .ok seen.reverse := by
  rw [visit]

/-- The parts of a closed object are the members that were noted. -/
theorem parts_object
    {members : List (Key × Draft)}
    (entered : route.enter = .ok inner)
    (visited : schema.visit inner [] members = .ok seen) :
    schema.parts route (.object members none) = .ok ⟨inner, seen⟩ := by
  simp [parts, entered, visited, Draft.closedMembers, Draft.closed, bind, Except.bind]

end Schema

/-- A draft that is decoded passes the check. -/
theorem Decoder.check_of_ok
    {α : Type}
    {decoder : Decoder α}
    {route : Route}
    {draft : Draft}
    {value : α}
    (decoded : decoder route draft = .ok value) :
    decoder.check route draft = .ok () := by
  simp [check, decoded, bind, Except.bind]

/-- A name leads to what its value was mapped to. -/
theorem lookup_mapped
    {α β : Type}
    (f : α → β)
    (members : List (String × α))
    (name : String) :
    (members.map fun member => (member.1, f member.2)).lookup name =
      (members.lookup name).map f := by
  induction members with
  | nil => rfl
  | cons member rest inductionHypothesis =>
      obtain ⟨other, value⟩ := member
      by_cases same : name = other
      · simp [same]
      · have skipped : (name == other) = false := by simpa using same
        simpa [List.lookup_cons, skipped] using inductionHypothesis

/-- Members as a record notes them. -/
def noted (members : List (String × Json)) : List (String × Draft) :=
  members.map fun member => (member.1, .ofJson member.2)

theorem lookup_noted
    (members : List (String × Json))
    (name : String) :
    (noted members).lookup name = (members.lookup name).map .ofJson :=
  lookup_mapped Draft.ofJson members name

theorem names_noted {members : List (String × Json)} :
    (noted members).map (·.1) = members.map (·.1) := by
  rw [noted, List.map_map]
  rfl

theorem filter_noted
    (members : List (String × Json))
    (kept : String → Bool) :
    (noted members).filter (kept ·.1) = noted (members.filter (kept ·.1)) := by
  rw [noted, noted, List.filter_map]
  rfl

namespace Draft

/-- Members with names that can be read. -/
def keyed (named : List (String × Draft)) : List (Key × Draft) :=
  named.map fun member => (.name member.1, member.2)

@[simp] theorem keyed_nil : keyed [] = [] :=
  rfl

@[simp] theorem keyed_cons
    (name : String)
    (value : Draft)
    (rest : List (String × Draft)) :
    keyed ((name, value) :: rest) = (.name name, value) :: keyed rest :=
  rfl

theorem keyed_noted (members : List (String × Json)) : keyed (noted members) = ofMembers members := by
  rw [keyed, noted, List.map_map, ofMembers_eq_map]
  rfl

end Draft

/-- A member that a record knows and can read. -/
def Schema.Fits
    (schema : Schema)
    (route : Route)
    (member : String × Json) :
    Prop :=
  ∃ field,
    schema.fields.find? (·.name == member.1) = some field ∧
      field.check route (.ofJson member.2) = .ok ()

/-- Whether a record has a member of this name. -/
def Schema.knows (schema : Schema) (name : String) : Bool :=
  (schema.fields.find? (·.name == name)).isSome

/-- A name that a record knows differs from one that it does not. -/
theorem Schema.ne_of_knows
    {schema : Schema}
    {name other : String}
    (unknown : schema.knows other = false)
    (knows : schema.knows name = true) :
    name ≠ other := by
  rintro rfl
  rw [unknown] at knows
  cases knows

/-- A member that fits is known. -/
theorem Schema.Fits.knows
    {schema : Schema}
    {route : Route}
    {member : String × Json}
    (fits : schema.Fits route member) :
    schema.knows member.1 = true := by
  obtain ⟨field, known, -⟩ := fits
  rw [Schema.knows, known, Option.isSome_some]

/-- Leaving out members by their names leaves the other names alone. -/
theorem lookup_filter
    {α : Type}
    {members : List (String × α)}
    {name : String}
    (kept : String → Bool) :
    (members.filter (kept ·.1)).lookup name = if kept name then members.lookup name else none := by
  induction members with
  | nil => simp
  | cons member rest inductionHypothesis =>
      obtain ⟨other, value⟩ := member
      by_cases same : name = other
      · subst same
        cases keeps : kept name <;> simp [keeps] at inductionHypothesis ⊢
        exact inductionHypothesis
      · have skipped : (name == other) = false := by simpa using same
        cases keeps : kept other <;> simpa [keeps, List.lookup_cons, skipped] using inductionHypothesis

/-- What is found among some members is found among all of them. -/
theorem lookup_of_filter
    {α : Type}
    {members : List (String × α)}
    {name : String}
    {value : α}
    (kept : String → Bool)
    (found : (members.filter (kept ·.1)).lookup name = some value) :
    members.lookup name = some value := by
  rw [lookup_filter kept] at found
  exact (Option.ite_none_right_eq_some.mp found).2

/-- Where names differ, none of the others is the first one. -/
theorem names_ne_of_nodup
    {α : Type}
    {name : String}
    {value : α}
    {rest : List (String × α)}
    (different : (((name, value) :: rest).map (·.1)).Nodup) :
    ∀ other ∈ rest, other.1 ≠ name := by
  rintro other inRest rfl
  exact (List.nodup_cons.mp different).1 (List.mem_map.mpr ⟨other, inRest, rfl⟩)

mutual

/-- A document can be passed over. -/
theorem Draft.passOver_ofJson (document : Json) : (Draft.ofJson document).passOver = .ok () := by
  cases document with
  | array items => exact Draft.passOverItems_ofItems items
  | object members => exact Draft.passOverMembers_ofMembers members
  | null | bool | number | string => rw [Draft.ofJson, Draft.passOver] <;> simp

/-- The items of a document can be passed over. -/
theorem Draft.passOverItems_ofItems (items : List Json) :
    (Draft.array (Draft.ofItems items) none).passOver = .ok () := by
  cases items with
  | nil => rfl
  | cons item rest =>
      have first := Draft.passOver_ofJson item
      have others := Draft.passOverItems_ofItems rest
      rw [Draft.passOver] at others ⊢
      rw [Draft.ofItems, Draft.passOverItems, first]
      exact others

/-- The members of a document can be passed over. -/
theorem Draft.passOverMembers_ofMembers (members : List (String × Json)) :
    (Draft.object (Draft.ofMembers members) none).passOver = .ok () := by
  cases members with
  | nil => rfl
  | cons member rest =>
      obtain ⟨name, value⟩ := member
      have first := Draft.passOver_ofJson value
      have others := Draft.passOverMembers_ofMembers rest
      rw [Draft.passOver] at others ⊢
      rw [Draft.ofMembers, Draft.passOverMembers, first]
      exact others

end

namespace Schema

variable
  {schema : Schema}
  {route inner : Route}
  {named : List (String × Draft)}

/-- A member that a record can read, if it knows it. -/
def Accepts
    (schema : Schema)
    (route : Route)
    (member : String × Draft) :
    Prop :=
  ∀ field, schema.fields.find? (·.name == member.1) = some field →
    field.check route member.2 = .ok ()

/-- Members with different names are noted if they are known. -/
theorem visit_keyed
    (different : (named.map (·.1)).Nodup)
    (passed : ∀ member ∈ named, member.2.passOver = .ok ())
    {seen parts : List (String × Draft)}
    (new : ∀ member ∈ named, seen.any (·.1 == member.1) = false) :
    schema.visit route seen (Draft.keyed named) = .ok parts ↔
      (∀ member ∈ named, schema.Accepts route member) ∧
        parts = seen.reverse ++ named.filter (schema.knows ·.1) := by
  induction named generalizing seen with
  | nil => simp [Draft.keyed, visit, eq_comm]
  | cons member rest inductionHypothesis =>
      obtain ⟨name, value⟩ := member
      have others := names_ne_of_nodup different
      have different := (List.nodup_cons.mp different).2
      obtain ⟨passedFirst, passedOthers⟩ := List.forall_mem_cons.mp passed
      obtain ⟨newFirst, newOthers⟩ := List.forall_mem_cons.mp new
      rw [List.forall_mem_cons, Draft.keyed_cons]
      cases known : schema.fields.find? (·.name == name) with
      | none =>
          have unknown : schema.knows name = false := by simp [knows, known]
          have accepted : schema.Accepts route (name, value) := by simp [Accepts, known]
          have passed : value.passOver = .ok () := passedFirst
          have further := inductionHypothesis different passedOthers newOthers
          simpa [visit, known, passed, unknown, accepted, bind, Except.bind] using further
      | some field =>
          have knows : schema.knows name = true := by simp [knows, known]
          have accepts :
              schema.Accepts route (name, value) ↔ field.check route value = .ok () := by
            simp [Accepts, known]
          have newOthers :
              ∀ other ∈ rest, ((name, value) :: seen).any (·.1 == other.1) = false := by
            intro other inRest
            simpa [(others other inRest).symm] using newOthers other inRest
          have further := inductionHypothesis different passedOthers newOthers
          rw [visit, accepts, and_assoc]
          simp only [known, newFirst, Bool.false_eq_true, if_false, check_bind_eq_ok,
            Draft.inMember_eq_ok]
          refine and_congr_right fun _ => ?_
          simpa [knows] using further

/-- The parts of an object whose members have different names. -/
theorem parts_keyed
    (entered : route.enter = .ok inner)
    (different : (named.map (·.1)).Nodup)
    (passed : ∀ member ∈ named, member.2.passOver = .ok ())
    {parts : Parts} :
    schema.parts route (.object (Draft.keyed named) none) = .ok parts ↔
      (∀ member ∈ named, schema.Accepts inner member) ∧
        parts = ⟨inner, named.filter (schema.knows ·.1)⟩ := by
  constructor
  · intro decoded
    simp only [Schema.parts, bind_eq_ok, entered] at decoded
    obtain ⟨_, ⟨⟩, seen, visited, -, -, made⟩ := decoded
    cases made
    obtain ⟨accepts, rfl⟩ := (visit_keyed different passed (by simp)).mp visited
    exact ⟨accepts, rfl⟩
  · rintro ⟨accepts, rfl⟩
    exact parts_object entered ((visit_keyed different passed (by simp)).mpr ⟨accepts, rfl⟩)

end Schema

/-- The parts of an object are the members that a record knows, if they fit. -/
theorem Schema.parts_among
    {schema : Schema}
    {route inner : Route}
    {members : List (String × Json)}
    (entered : route.enter = .ok inner)
    (different : (members.map (·.1)).Nodup)
    (fits : ∀ member ∈ members, schema.knows member.1 = true → schema.Fits inner member) :
    schema.parts route (.object (Draft.ofMembers members) none) =
      .ok ⟨inner, noted (members.filter (schema.knows ·.1))⟩ := by
  have passed : ∀ member ∈ noted members, member.2.passOver = .ok () := by
    intro member inside
    obtain ⟨source, -, rfl⟩ := List.mem_map.mp inside
    exact Draft.passOver_ofJson source.2
  rw [← Draft.keyed_noted, ← filter_noted members schema.knows]
  refine (parts_keyed entered (names_noted ▸ different) passed).mpr ⟨?_, rfl⟩
  intro member inside field known
  obtain ⟨source, among, rfl⟩ := List.mem_map.mp inside
  have knows : schema.knows source.1 = true := by rw [knows, known, Option.isSome_some]
  obtain ⟨other, found, checked⟩ := fits source among knows
  rw [found] at known
  cases known
  exact checked

/-- The parts of an object are its members if they fit and have different names. -/
theorem Schema.parts_ofMembers
    {schema : Schema}
    {route inner : Route}
    {members : List (String × Json)}
    (entered : route.enter = .ok inner)
    (different : (members.map (·.1)).Nodup)
    (fits : ∀ member ∈ members, schema.Fits inner member) :
    schema.parts route (.object (Draft.ofMembers members) none) =
      .ok ⟨inner, noted members⟩ := by
  have all : members.filter (schema.knows ·.1) = members :=
    List.filter_eq_self.mpr fun member inside => (fits member inside).knows
  rw [parts_among entered different fun member inside _ => fits member inside, all]

/-- A value that is there is decoded as such. -/
theorem Decoder.optional_of_ok
    {α : Type}
    {decoder : Decoder α}
    {route : Route}
    {draft : Draft}
    {value : α}
    (present : draft ≠ .null)
    (decoded : decoder route draft = .ok value) :
    Decoder.optional decoder route draft = .ok (some value) := by
  rw [optional, decoded]
  · rfl
  · exact present

/-- A value that came out was there. -/
theorem Decoder.of_optional_eq_some
    {α : Type}
    {decoder : Decoder α}
    {route : Route}
    {draft : Draft}
    {value : α}
    (read : Decoder.optional decoder route draft = .ok (some value)) :
    draft ≠ .null ∧ decoder route draft = .ok value := by
  by_cases absent : draft = .null
  · subst absent
    cases read
  · rw [optional, bind_eq_ok] at read
    · obtain ⟨inner, decoded, made⟩ := read
      cases made
      exact ⟨absent, decoded⟩
    · exact absent

namespace Decoder

variable
  {α : Type}
  {decoder : Decoder α}
  {route : Route}
  {encode : α → Json}
  {value : Option α}

/-- A decoder that recovers a value, if there is one, and does not take it for none. -/
def Recovers
    (decoder : Decoder α)
    (route : Route)
    (encode : α → Json)
    (value : Option α) :
    Prop :=
  ∀ present, value = some present →
    Draft.ofJson (encode present) ≠ .null ∧
      decoder route (.ofJson (encode present)) = .ok present

theorem Recovers.optional
    {present : α}
    (recovers : decoder.Recovers route encode value)
    (given : value = some present) :
    Decoder.optional decoder route (.ofJson (encode present)) = .ok (some present) :=
  optional_of_ok (recovers present given).1 (recovers present given).2

/-- A value or null is recovered as the value or as nothing. -/
theorem Recovers.optional_orNull (recovers : decoder.Recovers route encode value) :
    Decoder.optional decoder route (.ofJson (Json.orNull value encode)) = .ok value := by
  cases value with
  | none =>
      rw [Json.orNull, Draft.ofJson]
      rfl
  | some present => exact recovers.optional rfl

theorem recovers_signed
    (value : Option Int64)
    (route : Route) :
    Recovers signed route .signed value := by
  rintro present -
  have kept : (Integer.ofSigned present).toSigned? = some present := by
    have bound := present.toInt_lt
    rw [Integer.toSigned?, if_pos (by simpa [Integer.ofSigned] using bound)]
    simp [Integer.ofSigned]
  simp [Json.signed, Draft.ofJson, signed, kept]

theorem recovers_word
    (value : Option UInt64)
    (route : Route) :
    Recovers word route .word value := by
  rintro present -
  simp [Json.word, Draft.ofJson, word, Integer.toWord?, Integer.ofWord]

theorem recovers_string
    (value : Option String)
    (route : Route) :
    Recovers string route .string value := by
  rintro present -
  simp [Draft.ofJson, string]

end Decoder

/-- A member that may be missing fits a field that may be null. -/
theorem Schema.fits_member?
    {α : Type}
    {schema : Schema}
    {route : Route}
    {field : Field}
    {name : String}
    {decoder : Decoder α}
    {encode : α → Json}
    {value : Option α}
    (known : schema.fields.find? (·.name == name) = some field)
    (checked : field.check = (Decoder.optional decoder).check)
    (recovers : decoder.Recovers route encode value) :
    ∀ member ∈ Json.member? name value encode, schema.Fits route member := by
  cases value with
  | none => simp [Json.member?]
  | some present =>
      intro member single
      obtain rfl := List.mem_singleton.mp single
      refine ⟨field, known, ?_⟩
      rw [checked]
      exact Decoder.check_of_ok (recovers.optional rfl)

namespace Parts

variable
  {α : Type}
  {parts : Parts}
  {route : Route}
  {members : List (String × Json)}
  {name : String}
  {decoder : Decoder α}

theorem required_of_lookup
    {value : Draft}
    (found : parts.members.lookup name = some value)
    (decoder : Decoder α) :
    parts.required name decoder = decoder parts.route value := by
  rw [required, found]

/-- A member that is there is read. -/
theorem required_noted
    {document : Json}
    {value : α}
    (found : members.lookup name = some document)
    (read : decoder route (.ofJson document) = .ok value) :
    (⟨route, noted members⟩ : Parts).required name decoder = .ok value := by
  rw [required_of_lookup (by rw [lookup_noted, found]; rfl), read]

/-- A member that is left out when there is no value is read. -/
theorem optional_member?
    {value : Option α}
    {encode : α → Json}
    (found : members.lookup name = value.map encode)
    (recovers : decoder.Recovers route encode value) :
    (⟨route, noted members⟩ : Parts).optional name decoder = .ok value := by
  rw [optional, lookup_noted, found]
  cases value with
  | none => rfl
  | some present => exact recovers.optional rfl

/-- A member that is null when there is no value is read. -/
theorem optional_orNull
    {value : Option α}
    {encode : α → Json}
    (found : members.lookup name = some (Json.orNull value encode))
    (recovers : decoder.Recovers route encode value) :
    (⟨route, noted members⟩ : Parts).optional name decoder = .ok value := by
  rw [optional, lookup_noted, found]
  exact recovers.optional_orNull

theorem mem_of_lookup
    {draft : Draft}
    (found : parts.members.lookup name = some draft) :
    (name, draft) ∈ parts.members := by
  obtain ⟨before, after, split, -⟩ := List.lookup_eq_some_iff.mp found
  simp [split]

/-- A required member that was read is there. -/
theorem required_eq_ok
    {value : α}
    (read : parts.required name decoder = .ok value) :
    ∃ draft, (name, draft) ∈ parts.members ∧ decoder parts.route draft = .ok value := by
  unfold required at read
  split at read
  · next draft found => exact ⟨draft, mem_of_lookup found, read⟩
  · cases read

/-- A member that was read as present is there and not null. -/
theorem optional_eq_some
    {value : α}
    (read : parts.optional name decoder = .ok (some value)) :
    ∃ draft,
      (name, draft) ∈ parts.members ∧ draft ≠ .null ∧ decoder parts.route draft = .ok value := by
  unfold optional at read
  split at read
  · next draft found => exact ⟨draft, mem_of_lookup found, Decoder.of_optional_eq_some read⟩
  · cases read

end Parts

namespace Decoder

variable
  {tag variant : String}
  {known : List String}
  {route : Route}

/-- Members without the tag are set aside. -/
theorem visitTagged_keyed
    {named : List (String × Draft)}
    (others : ∀ member ∈ named, member.1 ≠ tag)
    (readable : ∀ member ∈ named, ∃ document, json route member.2 = .ok document)
    (chosen : Option String)
    (kept : List (Key × Draft)) :
    visitTagged tag known route chosen kept (Draft.keyed named) =
      .ok (chosen, kept.reverse ++ Draft.keyed named) := by
  induction named generalizing kept with
  | nil => simp [visitTagged]
  | cons member rest inductionHypothesis =>
      obtain ⟨name, value⟩ := member
      obtain ⟨other, others⟩ := List.forall_mem_cons.mp others
      obtain ⟨⟨document, read⟩, readable⟩ := List.forall_mem_cons.mp readable
      have further := inductionHypothesis others readable ((.name name, value) :: kept)
      simpa [visitTagged, other, read, bind, Except.bind] using further

/-- An object whose first member is the tag has that variant and its other members. -/
theorem tagged_ofMembers
    {members : List (String × Json)}
    (member : variant ∈ known)
    (others : ∀ member ∈ members, member.1 ≠ tag)
    (admits : route.Admits (depth (.object ((tag, .string variant) :: members))))
    (title : String) :
    tagged title tag known route (.ofJson (.object ((tag, .string variant) :: members))) =
      .ok (variant, .object (Draft.ofMembers members) none) := by
  rw [depth] at admits
  obtain ⟨inner, entered, admits⟩ := admits.enter
  rw [depthMembers] at admits
  have admits := admits.mono (Nat.le_max_right _ (depthMembers members))
  have shallow := depthMembers_le_iff.mp (Nat.le_refl (depthMembers members))
  have readable : ∀ member ∈ noted members, ∃ document, json inner member.2 = .ok document := by
    intro member inside
    obtain ⟨source, among, rfl⟩ := List.mem_map.mp inside
    exact ⟨_, Draft.document_ofJson source.2 (admits.mono (shallow source among))⟩
  have aside : ∀ member ∈ noted members, member.1 ≠ tag := by
    intro member inside
    obtain ⟨source, among, rfl⟩ := List.mem_map.mp inside
    exact others source among
  have visited :
      visitTagged tag known inner (some variant) [] (Draft.ofMembers members) =
        .ok (some variant, Draft.ofMembers members) := by
    rw [← Draft.keyed_noted]
    exact visitTagged_keyed aside readable _ _
  rw [Draft.ofJson, Draft.ofMembers, Draft.ofJson, tagged, entered]
  simp only [bind, Except.bind, visitTagged, if_true, variantName, if_pos member,
    Draft.inMember_ok, visited]
  rfl

/-- Items that are decoded one by one are decoded as a list. -/
theorem items_of_forall
    {α β : Type}
    {decoder : Decoder α}
    {draft : β → Draft}
    {value : β → α}
    {sources : List β}
    (decoded : ∀ source ∈ sources, decoder route (draft source) = .ok (value source))
    (index : Nat) :
    items decoder route index (sources.map draft) = .ok (sources.map value) := by
  induction sources generalizing index with
  | nil =>
      rfl
  | cons source rest inductionHypothesis =>
      have first := decoded source (by simp)
      have others := inductionHypothesis (fun other member => decoded other (by simp [member]))
      simp [items, first, others (index + 1), bind, Except.bind]

end Decoder

end AgentWire.Json

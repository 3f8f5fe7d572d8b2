import AgentWire.Json.Decoder

namespace AgentWire.Json

/-!
# Records and tagged values

A record is an object with known members; others are passed over.  It may also
be an array of its members in the order of their declaration.  Its parts are
checked in reading order, and only then is a missing one noticed.  A tagged
value is an object one of whose members names the variant; the other members
are set aside until the tag is known.
-/

/-- A member of a record. -/
structure Field where
  name : String
  /-- Whether an array may end before this member. -/
  mayEnd : Bool
  check : Decoder Unit

/-- The members of a record, with the words that name it in a message. -/
structure Schema where
  title : String
  fields : List Field

/-- The known members of a record that were found, and the route to decode them by. -/
structure Parts where
  route : Route
  members : List (String × Draft)

namespace Field

/-- A member that must be there. -/
def required {α : Type} (name : String) (decoder : Decoder α) : Field :=
  ⟨name, false, decoder.check⟩

/-- A member that may be absent or `null`; an array must have it. -/
def nullable {α : Type} (name : String) (decoder : Decoder α) : Field :=
  ⟨name, false, (Decoder.optional decoder).check⟩

/-- A member that may be absent or `null`, also at the end of an array. -/
def omittable {α : Type} (name : String) (decoder : Decoder α) : Field :=
  ⟨name, true, (Decoder.optional decoder).check⟩

/-- A list that may be absent, also at the end of an array. -/
def defaulted {α : Type} (name : String) (decoder : Decoder α) : Field :=
  ⟨name, true, decoder.check⟩

end Field

namespace Schema

/-- How many elements an array form has. -/
def expectedLength (schema : Schema) : String :=
  let count := schema.fields.length
  schema.title ++ " with " ++ toString count
    ++ (if count = 1 then " element" else " elements")

/-- Check the members of an object in text order. -/
def visit
    (schema : Schema)
    (route : Route)
    (seen : List (String × Draft)) :
    List (Key × Draft) → Reading (List (String × Draft))
  | [] => .ok seen.reverse
  | (.spoilt flaw, _) :: _ => Reading.within .nameless (.flawed flaw)
  | (.name name, value) :: rest =>
      match schema.fields.find? (·.name == name) with
      | none => do
          value.inMember name value.passOver
          visit schema route seen rest
      | some field => do
          if seen.any (·.1 == name) then
            .mismatched (.duplicateField name)
          value.inMember name (field.check route value)
          visit schema route ((name, value) :: seen) rest

/-- What stands behind the last member of an array form. -/
def leftover
    (route : Route)
    (read : Nat)
    (rest : List Draft)
    (stop : Option Break) :
    Reading Unit :=
  match rest, stop with
  | [], none => .ok ()
  | _, _ =>
      match route with
      | .text _ =>
          match rest, stop with
          | [], some spot =>
              if spot.read = .trailingComma ∨ spot.read = .endInArray then
                .flawed spot.read
              else
                .flawed .trailingCharacters
          | _, _ => .flawed .trailingCharacters
      | .tree => .mismatched (.wrongLength (read + rest.length) "fewer elements in array")
      | .buffer =>
          .mismatched <| .wrongLength (read + rest.length) <|
            toString read ++ (if read = 1 then " element" else " elements") ++ " in sequence"

/-- Check the items of an array form against the members. -/
def visitItems
    (schema : Schema)
    (route : Route)
    (stop : Option Break)
    (index : Nat)
    (seen : List (String × Draft)) :
    List Field → List Draft → Reading (List (String × Draft))
  | [], rest => do
      leftover route index rest stop
      .ok seen.reverse
  | field :: fields, [] => do
      Draft.closed stop
      if field.mayEnd then
        visitItems schema route stop (index + 1) seen fields []
      else
        .mismatched (.wrongLength index schema.expectedLength)
  | field :: fields, value :: rest => do
      (field.check route value).within (.item index)
      visitItems schema route stop (index + 1) ((field.name, value) :: seen) fields rest

/-- The parts of a record. -/
def parts (schema : Schema) : Decoder Parts
  | route, .object members stop => do
      let inner ← route.enter
      let seen ← schema.visit inner [] members
      Draft.closedMembers stop
      .ok ⟨inner, seen⟩
  | route, .array items stop => do
      let inner ← route.enter
      let seen ← schema.visitItems inner stop 0 [] schema.fields items
      .ok ⟨inner, seen⟩
  | _, draft => draft.refuse schema.title

end Schema

namespace Parts

/-- A member that must be there. -/
def required
    {α : Type}
    (parts : Parts)
    (name : String)
    (decoder : Decoder α) :
    Reading α :=
  match parts.members.lookup name with
  | some value => decoder parts.route value
  | none => .mismatched (.missingField name)

/-- A member that may be absent or `null`. -/
def optional
    {α : Type}
    (parts : Parts)
    (name : String)
    (decoder : Decoder α) :
    Reading (Option α) :=
  match parts.members.lookup name with
  | some value => Decoder.optional decoder parts.route value
  | none => .ok none

/-- A list that may be absent. -/
def listOrEmpty
    {α : Type}
    (parts : Parts)
    (name : String)
    (decoder : Decoder (List α)) :
    Reading (List α) :=
  match parts.members.lookup name with
  | some value => decoder parts.route value
  | none => .ok []

end Parts

namespace Decoder

/-- The name of a variant in a list; a part that was set aside may also give its position. -/
def variantName (known : List String) : Decoder String
  | _, .string name =>
      if name ∈ known then
        .ok name
      else
        .mismatched (.unknownVariant name known)
  | .buffer, .number (.integer kept) =>
      match kept.toWord? with
      | none => .mismatched (.wrongType (.number (.integer kept)) "variant identifier")
      | some index =>
          match known[index.toNat]? with
          | some name => .ok name
          | none =>
              .mismatched <| .wrongValue (.number (.integer kept)) <|
                "variant index 0 <= i < " ++ toString known.length
  | _, draft => draft.refuse "variant identifier"

/-- Set aside the members of a tagged value and find the variant. -/
def visitTagged
    (tag : String)
    (known : List String)
    (route : Route)
    (variant : Option String)
    (kept : List (Key × Draft)) :
    List (Key × Draft) → Reading (Option String × List (Key × Draft))
  | [] => .ok (variant, kept.reverse)
  | (.spoilt flaw, _) :: _ => Reading.within .nameless (.flawed flaw)
  | (.name name, value) :: rest =>
      if name = tag then
        match variant with
        | some _ => .mismatched (.duplicateField tag)
        | none => do
            let chosen ← value.inMember name (variantName known route value)
            visitTagged tag known route (some chosen) kept rest
      else do
        let _ ← value.inMember name (json route value)
        visitTagged tag known route variant ((.name name, value) :: kept) rest

/--
The variant of a tagged value and its other parts.  An array has the tag first.
-/
def tagged
    (title tag : String)
    (known : List String) :
    Decoder (String × Draft)
  | route, .object members stop => do
      let inner ← route.enter
      let (variant, kept) ← visitTagged tag known inner none [] members
      Draft.closedMembers stop
      match variant with
      | some name => .ok (name, .object kept none)
      | none => .mismatched (.missingField tag)
  | route, .array drafts stop => do
      let inner ← route.enter
      match drafts with
      | [] => do
          Draft.closed stop
          .mismatched (.missingField tag)
      | first :: rest => do
          let name ← (variantName known inner first).within (.item 0)
          let _ ← Draft.documentItems inner 1 rest
          Draft.closed stop
          .ok (name, .array rest none)
  | _, draft => draft.refuse ("internally tagged enum " ++ title)

/-- The flaw of something that is neither a name nor an object. -/
def nameExpected (draft : Draft) : Flaw :=
  match draft with
  | .spoilt flaw =>
      if flaw = .numberOutOfRange then .valueExpected else flaw
  | .broken spot =>
      if spot.site = .inside ∧ spot.read ∈ Flaw.ofBareTokens then
        .valueExpected
      else
        spot.read
  | _ => .valueExpected

/-- Nothing: the value of a variant without parts. -/
def nothing : Decoder Unit
  | _, .null => .ok ()
  | .buffer, .object [] none => .ok ()
  | _, draft => draft.refuse "unit"

/-- A variant without parts: its name, or an object of its name and nothing. -/
def bareVariant (known : List String) : Decoder String
  | _, .string name =>
      if name ∈ known then
        .ok name
      else
        .mismatched (.unknownVariant name known)
  | route, .object members stop => do
      let inner ← route.enter
      match inner with
      | .text _ =>
          match members, stop with
          | [], none => .flawed .valueExpected
          | [], some spot => .flawed spot.read
          | (.spoilt flaw, _) :: _, _ => .flawed flaw
          | (.name name, value) :: rest, _ => do
              if name ∉ known then
                .mismatched (.unknownVariant name known)
              nothing inner value
              match rest, stop with
              | [], none => .ok name
              | [], some spot =>
                  .flawed (if spot.read = .endInObject then .endInObject else .valueExpected)
              | _ :: _, _ => .flawed .valueExpected
      | _ =>
          match members with
          | [(.name name, value)] => do
              if name ∉ known then
                .mismatched (.unknownVariant name known)
              nothing inner value
              .ok name
          | _ => .mismatched (.wrongValue .map "map with a single key")
  | .text _, draft => .flawed (nameExpected draft)
  | _, draft => draft.refuse "string or map"

end Decoder

end AgentWire.Json

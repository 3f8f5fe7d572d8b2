import AgentWire.Patch
import AgentWire.Proofs.Json.Children
import AgentWire.Proofs.Json.WrittenRecord

namespace AgentWire

/-!
# Written patches are read back

The bytes of a patch are decoded as that patch, null values included, as long as
its values are canonical, hold no doubles and are not nested too deeply.  The values
of a patch that was decoded are canonical.
-/

open Json (Decoder Draft Parts Route Schema)

namespace PatchOperation

/-- The value that an operation carries. -/
def value? : PatchOperation → Option Json
  | .add _ value => some value
  | .replace _ value => some value
  | .test _ value => some value
  | .remove _ | .move _ _ | .copy _ _ => none

/-- The members of an operation behind its name. -/
def members : PatchOperation → List (String × Json)
  | .add path value | .replace path value | .test path value =>
      [("path", .string path), ("value", value)]
  | .remove path => [("path", .string path)]
  | .move source path | .copy source path =>
      [("from", .string source), ("path", .string path)]

theorem encode_eq (operation : PatchOperation) :
    operation.encode =
      .object (("op", .string operation.name) :: operation.members) := by
  cases operation <;> rfl

theorem name_mem (operation : PatchOperation) : operation.name ∈ names := by
  cases operation <;> simp [name, names]

/-- No member of an operation has the name under which the operation is named. -/
theorem members_ne_op (operation : PatchOperation) :
    ∀ member ∈ operation.members, member.1 ≠ "op" := by
  cases operation <;> simp [members]

/-- An operation with a value is decoded from its path and its value. -/
theorem decodeValue_object
    (title : String)
    (make : String → Json → PatchOperation)
    (path : String)
    {value : Json}
    (canonical : value.canonical = true) :
    decodeValue title make
        (.object [(.name "path", .string path), (.name "value", .ofJson value)] none) =
      .ok (make path value) := by
  have admits : Route.Admits .buffer value.depth :=
    trivial
  have read : Decoder.json .buffer (.ofJson value) = .ok value := by
    have document := Draft.document_ofJson value admits
    rwa [Json.normal_of_canonical value canonical] at document
  have visited :
      (valueSchema title).visit .buffer []
          [(.name "path", .string path), (.name "value", .ofJson value)] =
        .ok [("path", .string path), ("value", .ofJson value)] := by
    rw [Schema.visit_known rfl rfl rfl, Schema.visit_known rfl rfl (Decoder.check_of_ok read),
      Schema.visit_nil]
    rfl
  have valueRead :
      Parts.required
          ⟨.buffer, [("path", .string path), ("value", .ofJson value)]⟩ "value" Decoder.json =
        .ok value :=
    (Parts.required_of_lookup rfl Decoder.json).trans read
  rw [decodeValue, Schema.parts_object rfl visited]
  simp only [bind, Except.bind, valueRead]
  rfl

/-- An operation with a source is decoded from its source and its path. -/
theorem decodeSource_object
    (title : String)
    (make : String → String → PatchOperation)
    (source path : String) :
    decodeSource title make
        (.object [(.name "from", .string source), (.name "path", .string path)] none) =
      .ok (make source path) := by
  have visited :
      (sourceSchema title).visit .buffer []
          [(.name "from", .string source), (.name "path", .string path)] =
        .ok [("from", .string source), ("path", .string path)] := by
    rw [Schema.visit_known rfl rfl rfl, Schema.visit_known rfl rfl rfl, Schema.visit_nil]
    rfl
  rw [decodeSource, Schema.parts_object rfl visited]
  rfl

/-- A removal is decoded from its path. -/
theorem decodeRemove_object (path : String) :
    decodeRemove (.object [(.name "path", .string path)] none) = .ok (.remove path) := by
  have visited :
      removeSchema.visit .buffer [] [(.name "path", .string path)] =
        .ok [("path", .string path)] := by
    rw [Schema.visit_known rfl rfl rfl, Schema.visit_nil]
    rfl
  rw [decodeRemove, Schema.parts_object rfl visited]
  rfl

/-- The members of an operation whose name is known are read back. -/
theorem decodeParts_members
    {operation : PatchOperation}
    (canonical : ∀ value, operation.value? = some value → value.canonical = true) :
    decodeParts operation.name (.object (Draft.ofMembers operation.members) none) =
      .ok operation := by
  cases operation with
  | add path value =>
      exact decodeValue_object _ _ path (canonical value rfl)
  | remove path =>
      exact decodeRemove_object path
  | replace path value =>
      exact decodeValue_object _ _ path (canonical value rfl)
  | move source path =>
      exact decodeSource_object _ _ source path
  | copy source path =>
      exact decodeSource_object _ _ source path
  | test path value =>
      exact decodeValue_object _ _ path (canonical value rfl)

/-- An operation is read back. -/
theorem decode_encode
    {route : Route}
    {operation : PatchOperation}
    (canonical : ∀ value, operation.value? = some value → value.canonical = true)
    (admits : route.Admits operation.encode.depth) :
    decode route (.ofJson operation.encode) = .ok operation := by
  rw [encode_eq] at admits ⊢
  rw [decode, Decoder.tagged_ofMembers operation.name_mem operation.members_ne_op admits]
  simp only [bind, Except.bind, decodeParts_members canonical]
  rfl

/-- An operation is read back from its free-form document, where its name need not be first. -/
theorem decode_normal
    {operation : PatchOperation}
    (canonical : ∀ value, operation.value? = some value → value.canonical = true) :
    decode .tree (.ofJson operation.encode.normal) = .ok operation := by
  have read (sorted : operation.encode.canonical = true) :
      decode .tree (.ofJson operation.encode.normal) = .ok operation := by
    rw [Json.normal_of_canonical _ sorted]
    exact decode_encode canonical trivial
  cases operation with
  | move source path => rfl
  | copy source path => rfl
  | remove path =>
      have inOrder : Dictionary.sortedNames ["op", "path"] = true := by decide
      apply read
      simp [encode, name, Json.canonical, Json.canonicalMembers, inOrder]
  | add path value | replace path value | test path value =>
      have inOrder : Dictionary.sortedNames ["op", "path", "value"] = true := by decide
      apply read
      simp [encode, name, Json.canonical, Json.canonicalMembers, inOrder, canonical value rfl]

/-- An operation that was read from a draft: its value, if it has one, stands below it. -/
structure ReadFrom
    (operation : PatchOperation)
    (draft : Draft) :
    Prop where
  child : ∃ child, child ∈ draft.children
  value :
    ∀ value, operation.value? = some value →
      ∃ child ∈ draft.children, Decoder.json .buffer child = .ok value

section Decoded

variable
  {title : String}
  {route : Route}
  {draft : Draft}
  {operation : PatchOperation}

/-- An operation with a value was read from below its draft. -/
theorem readFrom_of_decodeValue
    {make : String → Json → PatchOperation}
    (carried : ∀ path value, (make path value).value? = some value)
    (decoded : decodeValue title make draft = .ok operation) :
    operation.ReadFrom draft := by
  simp only [decodeValue, Json.bind_eq_ok] at decoded
  obtain ⟨parts, found, path, -, value, read, made⟩ := decoded
  cases made
  obtain ⟨child, below, read⟩ := Schema.child_of_required found read
  rw [Schema.route_of_parts rfl found] at read
  refine ⟨⟨child, below⟩, fun other given => ⟨child, below, ?_⟩⟩
  rw [carried, Option.some.injEq] at given
  rw [read, given]

/-- An operation with a source was read from below its draft. -/
theorem readFrom_of_decodeSource
    {make : String → String → PatchOperation}
    (bare : ∀ source path, (make source path).value? = none)
    (decoded : decodeSource title make draft = .ok operation) :
    operation.ReadFrom draft := by
  simp only [decodeSource, Json.bind_eq_ok] at decoded
  obtain ⟨parts, found, source, read, path, -, made⟩ := decoded
  cases made
  obtain ⟨child, below, -⟩ := Schema.child_of_required found read
  exact ⟨⟨child, below⟩, by simp [bare]⟩

/-- A removal was read from below its draft. -/
theorem readFrom_of_decodeRemove (decoded : decodeRemove draft = .ok operation) :
    operation.ReadFrom draft := by
  simp only [decodeRemove, Json.bind_eq_ok] at decoded
  obtain ⟨parts, found, path, read, made⟩ := decoded
  cases made
  obtain ⟨child, below, -⟩ := Schema.child_of_required found read
  exact ⟨⟨child, below⟩, by simp [value?]⟩

/-- An operation was read from below its draft, whichever it is. -/
theorem readFrom_of_decode (decoded : decode route draft = .ok operation) :
    operation.ReadFrom draft := by
  simp only [decode, Json.bind_eq_ok, Json.Reading.whole_eq_ok] at decoded
  obtain ⟨⟨name, rest⟩, tagged, decoded⟩ := decoded
  have within : operation.ReadFrom rest := by
    unfold decodeParts at decoded
    split at decoded
    · exact readFrom_of_decodeValue (fun _ _ => rfl) decoded
    · exact readFrom_of_decodeRemove decoded
    · exact readFrom_of_decodeValue (fun _ _ => rfl) decoded
    · exact readFrom_of_decodeSource (fun _ _ => rfl) decoded
    · exact readFrom_of_decodeSource (fun _ _ => rfl) decoded
    · exact readFrom_of_decodeValue (fun _ _ => rfl) decoded
  have below := Decoder.child_of_tagged tagged
  obtain ⟨⟨child, among⟩, value⟩ := within
  refine ⟨⟨child, below child among⟩, fun carried given => ?_⟩
  obtain ⟨child, among, read⟩ := value carried given
  exact ⟨child, below child among, read⟩

/-- The value of an operation that was decoded is canonical. -/
theorem canonical_of_decode (decoded : decode route draft = .ok operation) :
    ∀ value, operation.value? = some value → value.canonical = true := by
  intro value carried
  obtain ⟨child, -, read⟩ := (readFrom_of_decode decoded).value value carried
  exact Draft.canonical_of_document child read

end Decoded

/-- An operation is without doubles if its value is. -/
theorem wholeNumbers_encode
    {operation : PatchOperation}
    (whole : ∀ value, operation.value? = some value → value.wholeNumbers = true) :
    operation.encode.wholeNumbers = true := by
  rw [encode_eq]
  cases operation <;>
    simp_all [members, value?, Json.wholeNumbers, Json.wholeNumbersMembers]

/-- An operation has one level more than its value. -/
theorem depth_encode_le
    {operation : PatchOperation}
    {levels : Nat}
    (shallow : ∀ value, operation.value? = some value → value.depth ≤ levels) :
    operation.encode.depth ≤ levels + 1 := by
  rw [encode_eq]
  cases operation <;>
    simp_all [members, value?, Json.depth, Json.depthMembers]

end PatchOperation

namespace Patch

/-- A patch is without doubles if its values are. -/
theorem wholeNumbers_encode
    {patch : Patch}
    (whole :
      ∀ operation ∈ patch, ∀ value,
        operation.value? = some value → value.wholeNumbers = true) :
    (encode patch).wholeNumbers = true := by
  rw [encode, Json.wholeNumbers]
  induction patch with
  | nil =>
      rw [List.map_nil, Json.wholeNumbersItems]
  | cons operation rest inductionHypothesis =>
      rw [List.map_cons, Json.wholeNumbersItems, Bool.and_eq_true]
      refine ⟨PatchOperation.wholeNumbers_encode (whole operation (by simp)), ?_⟩
      exact inductionHypothesis fun other member => whole other (by simp [member])

/-- A patch has two levels more than its values. -/
theorem depth_encode_le
    {patch : Patch}
    {levels : Nat}
    (shallow :
      ∀ operation ∈ patch, ∀ value,
        operation.value? = some value → value.depth ≤ levels) :
    (encode patch).depth ≤ levels + 2 := by
  rw [encode, Json.depth]
  induction patch with
  | nil =>
      simp [Json.depthItems]
  | cons operation rest inductionHypothesis =>
      have first := PatchOperation.depth_encode_le (shallow operation (by simp))
      have others := inductionHypothesis fun other member => shallow other (by simp [member])
      rw [List.map_cons, Json.depthItems]
      omega

/-- The values of a patch that was decoded are canonical. -/
theorem canonical_of_decode
    {route : Route}
    {draft : Draft}
    {patch : Patch}
    (decoded : decode route draft = .ok patch) :
    ∀ operation ∈ patch, ∀ value,
      operation.value? = some value → value.canonical = true := by
  intro operation member
  obtain ⟨inner, drafts, -, -, read⟩ := Decoder.list_eq_ok.mp decoded
  obtain ⟨source, -, read⟩ := Json.exists_left_of_forall₂ read operation member
  exact PatchOperation.canonical_of_decode read

section Canonical

variable
  {route : Route}
  {patch : Patch}
  (canonical :
    ∀ operation ∈ patch, ∀ value,
      operation.value? = some value → value.canonical = true)

include canonical

/-- A patch is read back. -/
theorem decode_encode (admits : route.Admits (encode patch).depth) :
    decode route (.ofJson (encode patch)) = .ok patch := by
  rw [encode, Json.depth] at admits
  obtain ⟨inner, entered, admits⟩ := admits.enter
  refine Decoder.list_ofItems entered fun operation member => ?_
  have shallow : operation.encode.depth ≤ Json.depthItems (patch.map PatchOperation.encode) :=
    Json.depthItems_le_iff.mp (Nat.le_refl _) _ (List.mem_map_of_mem member)
  exact PatchOperation.decode_encode (canonical operation member) (admits.mono shallow)

/-- A patch is read back from its free-form document. -/
theorem decode_normal : decode .tree (.ofJson (encode patch).normal) = .ok patch := by
  rw [encode, Json.normal, Json.normalItems_eq_map, List.map_map]
  exact Decoder.list_ofItems rfl fun operation member =>
    PatchOperation.decode_normal (canonical operation member)

/-- The bytes of a patch are read as that patch. -/
theorem decode_bytes
    (whole : (encode patch).wholeNumbers = true)
    (shallow : (encode patch).depth ≤ Route.deepest) :
    decode.bytes (encode patch).bytes = .ok patch := by
  have admits : Route.Admits .wholeText (encode patch).depth :=
    shallow
  rw [Decoder.bytes_bytes decode whole]
  exact decode_encode canonical admits

end Canonical

end Patch

end AgentWire

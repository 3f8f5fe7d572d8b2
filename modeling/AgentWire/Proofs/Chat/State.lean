import AgentWire.Chat.State
import AgentWire.Proofs.Json.Nesting
import AgentWire.Proofs.Patch

namespace AgentWire

/-!
# State items are read back

The item of a state document is decoded as that document, and the item of a patch as that
patch, if a text may be nested so deeply, and otherwise refused.  Whatever bytes a payload was
decoded from, it is decoded again from the bytes that it is written as.
-/

open Json (Decoder Draft Route)

variable
  {levels : Nat}
  {draft : Draft}

/-- The value of an operation that was read from a text is nested one level less than the text. -/
theorem PatchOperation.shallow_of_decode
    {operation : PatchOperation}
    (decoded : decode (.text (levels + 1)) draft = .ok operation) :
    ∀ value, operation.value? = some value → value.depth ≤ levels := by
  intro value carried
  obtain ⟨child, below, read⟩ := (readFrom_of_decode decoded).value value carried
  simp only [decode, Json.bind_eq_ok] at decoded
  obtain ⟨parts, tagged, -⟩ := decoded
  obtain ⟨inner, ⟨⟩, documents⟩ := Decoder.document_of_child_of_tagged tagged
  obtain ⟨document, readText⟩ := documents child below
  have free := Draft.document_of_document child (fun _ => Route.admits_buffer) readText
  obtain rfl : document = value := Except.ok.inj (free.symm.trans read)
  exact (Draft.within_of_document child readText).shallow

/-- A written operation is read only if its value is nested one level less than the text may be. -/
theorem PatchOperation.shallow_of_decode_encode
    {operation other : PatchOperation}
    (canonical : ∀ value, operation.value? = some value → value.canonical = true)
    (decoded : decode (.text (levels + 1)) (.ofJson operation.encode) = .ok other) :
    ∀ value, operation.value? = some value → value.depth ≤ levels := by
  intro value carried
  simp only [decode, Json.bind_eq_ok] at decoded
  obtain ⟨parts, tagged, -⟩ := decoded
  obtain ⟨inner, ⟨⟩, documents⟩ := Decoder.document_of_child_of_tagged tagged
  have below : Draft.ofJson value ∈ (Draft.ofJson operation.encode).children := by
    rw [encode_eq]
    cases operation <;> simp_all [value?, members, Draft.ofJson, Draft.ofMembers, Draft.children]
  exact (Draft.document_ofJson_iff (canonical value carried)).mp (documents _ below)

namespace Patch

variable {patch other : Patch}

/-- A patch that is read has no deeper values than its reader allows. -/
theorem shallow_of_decode (decoded : decode (.text (levels + 2)) draft = .ok patch) :
    ∀ operation ∈ patch, ∀ value, operation.value? = some value → value.depth ≤ levels := by
  obtain ⟨inner, drafts, rfl, ⟨⟩, read⟩ := Decoder.list_eq_ok.mp decoded
  intro operation member
  obtain ⟨source, -, read⟩ := Json.exists_left_of_forall₂ read operation member
  exact PatchOperation.shallow_of_decode read

/-- A patch that is read back was not deeper than its reader allows. -/
theorem shallow_of_decode_encode
    (canonical :
      ∀ operation ∈ patch, ∀ value, operation.value? = some value → value.canonical = true)
    (decoded : decode (.text (levels + 2)) (.ofJson (encode patch)) = .ok other) :
    ∀ operation ∈ patch, ∀ value, operation.value? = some value → value.depth ≤ levels := by
  obtain ⟨inner, drafts, same, ⟨⟩, read⟩ := Decoder.list_eq_ok.mp decoded
  rw [encode, Draft.ofJson, Draft.ofItems_eq_map] at same
  cases same
  intro operation member
  obtain ⟨found, -, read⟩ := Json.exists_right_of_forall₂ read (.ofJson operation.encode)
    (List.mem_map_of_mem (List.mem_map_of_mem member))
  exact PatchOperation.shallow_of_decode_encode (canonical operation member) read

end Patch

namespace Chat

namespace StatePayload

/-- The item of a payload. -/
def encode : StatePayload → ContentItem
  | .snapshot document => encodeSnapshot document
  | .delta patch => encodeDelta patch

/-- A payload without doubles. -/
def WholeNumbers : StatePayload → Prop
  | .snapshot document => document.wholeNumbers = true
  | .delta patch =>
      ∀ operation ∈ patch, ∀ value, operation.value? = some value → value.wholeNumbers = true

end StatePayload

section Snapshot

variable {document : Json}

/-- Data of the type of documents is read as a document. -/
theorem decodeState_snapshot (bytes : Text.Bytes) :
    decodeState (.data snapshotType bytes) =
      (decodeSnapshot bytes).map fun document => some (.snapshot document) := by
  simp only [decodeState, if_true, bind, Except.bind]
  cases decodeSnapshot bytes <;> rfl

/-- A document without doubles that is not nested too deeply is read back from its bytes. -/
theorem decodeSnapshot_bytes
    (canonical : document.canonical = true)
    (whole : document.wholeNumbers = true)
    (shallow : document.depth ≤ Route.deepest) :
    decodeSnapshot document.bytes = .ok document := by
  rw [decodeSnapshot, Decoder.json_bytes canonical whole shallow]
  rfl

/-- A document that is nested too deeply is written, and not read. -/
theorem decodeSnapshot_of_deep
    (canonical : document.canonical = true)
    (whole : document.wholeNumbers = true)
    (deep : Route.deepest < document.depth) :
    ∃ message, decodeSnapshot document.bytes = .error (.malformed "snapshot" message) := by
  rw [decodeSnapshot, Decoder.bytes_bytes _ whole]
  cases read : Decoder.json .wholeText (.ofJson document) with
  | ok other =>
      have shallow := (Draft.document_ofJson_iff canonical).mp ⟨other, read⟩
      exact absurd shallow (Nat.not_le_of_lt deep)
  | error refusal => exact ⟨refusal.message, rfl⟩

end Snapshot

section Delta

variable {patch : Patch}

/-- Data of the type of patches is read as a patch. -/
theorem decodeState_delta (bytes : Text.Bytes) :
    decodeState (.data deltaType bytes) =
      (decodeDelta bytes).map fun patch => some (.delta patch) := by
  have other : deltaType ≠ snapshotType := by decide
  simp only [decodeState, other, if_true, if_false, bind, Except.bind]
  cases decodeDelta bytes <;> rfl

section Canonical

variable
  (canonical :
    ∀ operation ∈ patch, ∀ value, operation.value? = some value → value.canonical = true)
  (whole :
    ∀ operation ∈ patch, ∀ value, operation.value? = some value → value.wholeNumbers = true)

include canonical whole

/-- An operation takes two levels of the text around its value. -/
theorem decodeDelta_bytes
    (shallow :
      ∀ operation ∈ patch, ∀ value, operation.value? = some value → value.depth ≤ 125) :
    decodeDelta patch.encode.bytes = .ok patch := by
  have read := Patch.decode_bytes canonical (Patch.wholeNumbers_encode whole)
    (Patch.depth_encode_le shallow)
  rw [decodeDelta, read]
  rfl

/-- A patch with a value that is nested too deeply is refused, by name. -/
theorem decodeDelta_of_deep
    {operation : PatchOperation}
    {value : Json}
    (member : operation ∈ patch)
    (carried : operation.value? = some value)
    (deep : 125 < value.depth) :
    ∃ message, decodeDelta patch.encode.bytes = .error (.malformed "delta" message) := by
  rw [decodeDelta, Decoder.bytes_bytes _ (Patch.wholeNumbers_encode whole)]
  cases read : Patch.decode .wholeText (.ofJson patch.encode) with
  | ok other =>
      have shallow := Patch.shallow_of_decode_encode canonical read operation member value carried
      exact absurd shallow (Nat.not_le_of_lt deep)
  | error refusal => exact ⟨refusal.message, rfl⟩

end Canonical

end Delta

/-- A state document was read from a whole text: it is canonical, and no deeper than a text. -/
theorem of_decodeSnapshot
    {bytes : Text.Bytes}
    {document : Json}
    (decoded : decodeSnapshot bytes = .ok document) :
    document.canonical = true ∧ document.depth ≤ Route.deepest := by
  obtain ⟨root, -⟩ := Decoder.sheet_eq_ok.mp (Json.mapError_eq_ok.mp decoded)
  exact ⟨Draft.canonical_of_document _ root, (Draft.within_of_document _ root).shallow⟩

/-- A payload that was decoded from some bytes is decoded from its own. -/
theorem decodeState_encode
    {mediaType : String}
    {bytes : Text.Bytes}
    {payload : StatePayload}
    (decoded : decodeState (.data mediaType bytes) = .ok (some payload))
    (whole : payload.WholeNumbers) :
    decodeState payload.encode = .ok (some payload) := by
  by_cases snapshot : mediaType = snapshotType
  · subst snapshot
    rw [decodeState_snapshot] at decoded
    cases read : decodeSnapshot bytes with
    | error problem => simp [read, Except.map] at decoded
    | ok document =>
        obtain rfl : StatePayload.snapshot document = payload := by
          simpa [read, Except.map] using decoded
        obtain ⟨canonical, shallow⟩ := of_decodeSnapshot read
        rw [StatePayload.encode, encodeSnapshot, decodeState_snapshot,
          decodeSnapshot_bytes canonical whole shallow]
        rfl
  · by_cases delta : mediaType = deltaType
    · subst delta
      rw [decodeState_delta] at decoded
      cases read : decodeDelta bytes with
      | error problem => simp [read, Except.map] at decoded
      | ok patch =>
          obtain rfl : StatePayload.delta patch = payload := by
            simpa [read, Except.map] using decoded
          obtain ⟨root, -⟩ := Decoder.sheet_eq_ok.mp (Json.mapError_eq_ok.mp read)
          rw [StatePayload.encode, encodeDelta, decodeState_delta,
            decodeDelta_bytes (Patch.canonical_of_decode root) whole
              (Patch.shallow_of_decode root)]
          rfl
    · simp [decodeState, snapshot, delta] at decoded

/--
A free-form document without doubles is decoded from its item if it is nested at most 127
levels, and a patch if its values are nested at most 125; what is nested more deeply is refused,
and the refusal says which of the two could not be read.  A payload without doubles that was
decoded from any bytes at all is decoded again from the item that it is written as.
-/
theorem state_read_back :
    (∀ document : Json, document.canonical = true → document.wholeNumbers = true →
      (document.depth ≤ 127 →
        decodeState (encodeSnapshot document) = .ok (some (.snapshot document))) ∧
      (127 < document.depth →
        ∃ message,
          decodeState (encodeSnapshot document) = .error (.malformed "snapshot" message))) ∧
    (∀ patch : Patch,
      (∀ operation ∈ patch, ∀ value, operation.value? = some value →
        value.canonical = true ∧ value.wholeNumbers = true) →
      ((∀ operation ∈ patch, ∀ value, operation.value? = some value → value.depth ≤ 125) →
        decodeState (encodeDelta patch) = .ok (some (.delta patch))) ∧
      ((∃ operation ∈ patch, ∃ value, operation.value? = some value ∧ 125 < value.depth) →
        ∃ message, decodeState (encodeDelta patch) = .error (.malformed "delta" message))) ∧
    ∀ mediaType bytes payload,
      decodeState (.data mediaType bytes) = .ok (some payload) → payload.WholeNumbers →
        decodeState payload.encode = .ok (some payload) := by
  refine ⟨?documents, ?patches, fun _ _ _ => decodeState_encode⟩
  case documents =>
    intro document canonical whole
    rw [encodeSnapshot, decodeState_snapshot]
    constructor
    · intro shallow
      rw [decodeSnapshot_bytes canonical whole shallow]
      rfl
    · intro deep
      obtain ⟨message, refused⟩ := decodeSnapshot_of_deep canonical whole deep
      exact ⟨message, by rw [refused]; rfl⟩
  case patches =>
    intro patch values
    have canonical := fun operation member value carried =>
      (values operation member value carried).1
    have whole := fun operation member value carried =>
      (values operation member value carried).2
    rw [encodeDelta, decodeState_delta]
    constructor
    · intro shallow
      rw [decodeDelta_bytes canonical whole shallow]
      rfl
    · rintro ⟨operation, member, value, carried, deep⟩
      obtain ⟨message, refused⟩ := decodeDelta_of_deep canonical whole member carried deep
      exact ⟨message, by rw [refused]; rfl⟩

namespace NestedState

/-- Null in so many arrays. -/
def nested : Nat → Json
  | 0 => .null
  | levels + 1 => .array [nested levels]

/-- Arrays inside of one another are canonical and as deep as they are many. -/
theorem nested_fits (levels : Nat) :
    (nested levels).canonical = true ∧ (nested levels).wholeNumbers = true ∧
      (nested levels).depth = levels := by
  induction levels with
  | zero => exact ⟨rfl, rfl, rfl⟩
  | succ levels inductionHypothesis =>
      obtain ⟨canonical, whole, depth⟩ := inductionHypothesis
      simp [nested, Json.canonical, Json.canonicalItems, Json.wholeNumbers,
        Json.wholeNumbersItems, Json.depth, Json.depthItems, canonical, whole, depth]

/-- A patch with all kinds of operations, null among their values. -/
def patch (levels : Nat) : Patch :=
  [.add "/x" .null, .remove "/y", .replace "/é\n" (nested levels), .move "/a" "/b",
   .copy "/b" "/c", .test "/x" .null]

/-- A patch with an operation that comes as an array, and one with a foreign member. -/
def loose : String :=
  "[[\"add\", \"/x\", null], \x7b\"value\":1, \"note\":1.5, \"path\":\"\", \"op\":\"test\"\x7d]"

def looseRead : Patch :=
  [.add "/x" .null, .test "" (.word 1)]

end NestedState

open NestedState

/--
At the limits: the deepest documents and patches are read back, and one level more is
refused.
-/
theorem state_read_back_deepest :
    decodeState (encodeSnapshot (nested 127)) = .ok (some (.snapshot (nested 127))) ∧
      (∃ message,
        decodeState (encodeSnapshot (nested 128)) = .error (.malformed "snapshot" message)) ∧
      decodeState (encodeDelta (patch 125)) = .ok (some (.delta (patch 125))) ∧
      (∃ message,
        decodeState (encodeDelta (patch 126)) = .error (.malformed "delta" message)) ∧
      decodeState (.data deltaType (Text.Utf8.encode loose)) = .ok (some (.delta looseRead)) ∧
      decodeState (encodeDelta looseRead) = .ok (some (.delta looseRead)) := by
  obtain ⟨documents, patches, again⟩ := state_read_back
  have document (levels : Nat) :=
    documents (nested levels) (nested_fits levels).1 (nested_fits levels).2.1
  have values (levels : Nat) :
      ∀ operation ∈ patch levels, ∀ value, operation.value? = some value →
        value.canonical = true ∧ value.wholeNumbers = true := by
    have null : Json.canonical .null = true ∧ Json.wholeNumbers .null = true := ⟨rfl, rfl⟩
    simp [patch, PatchOperation.value?, null, nested_fits levels]
  have depths (levels : Nat) :
      ∀ operation ∈ patch levels, ∀ value, operation.value? = some value →
        value.depth ≤ levels := by
    have null : Json.depth .null = 0 := rfl
    simp [patch, PatchOperation.value?, null, nested_fits levels]
  have tooDeep :
      ∃ operation ∈ patch 126, ∃ value,
        operation.value? = some value ∧ 125 < value.depth :=
    ⟨.replace "/é\n" (nested 126), by simp [patch], nested 126, rfl, by
      simp [nested_fits 126]⟩
  have read :
      decodeState (.data deltaType (Text.Utf8.encode loose)) = .ok (some (.delta looseRead)) := by
    have text : Patch.decode.text loose = .ok looseRead :=
      Json.eq_ok_of_toOption (by decide +kernel)
    rw [decodeState_delta, decodeDelta, Decoder.bytes_encode, text]
    rfl
  have whole : StatePayload.WholeNumbers (.delta looseRead) := by
    have each : Json.wholeNumbers .null = true ∧ Json.wholeNumbers (.word 1) = true := ⟨rfl, rfl⟩
    simp [StatePayload.WholeNumbers, looseRead, PatchOperation.value?, each]
  refine ⟨?_, ?_, ?_, ?_, read, again _ _ _ read whole⟩
  · exact (document 127).1 (by simp [nested_fits 127])
  · exact (document 128).2 (by simp [nested_fits 128])
  · exact (patches (patch 125) (values 125)).1 (depths 125)
  · exact (patches (patch 126) (values 126)).2 tooDeep

end Chat

end AgentWire

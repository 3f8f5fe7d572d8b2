import AgentWire.Json.Equality
import AgentWire.Json.Record
import AgentWire.Json.Writer

namespace AgentWire

/-!
# JSON patches

An ordered list of changes to a state document.  An explicit `null` value is a
value like any other.
-/

/-- One change to a document. -/
inductive PatchOperation where
  | add (path : String) (value : Json)
  | remove (path : String)
  | replace (path : String) (value : Json)
  | move (source path : String)
  | copy (source path : String)
  | test (path : String) (value : Json)
  deriving Repr, DecidableEq

/-- Changes in the order in which they apply. -/
abbrev Patch := List PatchOperation

namespace PatchOperation

/-- The name of the operation on the wire. -/
def name : PatchOperation → String
  | .add .. => "add"
  | .remove .. => "remove"
  | .replace .. => "replace"
  | .move .. => "move"
  | .copy .. => "copy"
  | .test .. => "test"

/-- The place that the operation changes or tests. -/
def path : PatchOperation → String
  | .add path _ => path
  | .remove path => path
  | .replace path _ => path
  | .move _ path => path
  | .copy _ path => path
  | .test path _ => path

/-- The wire form of an operation. -/
def encode (operation : PatchOperation) : Json :=
  .object <| ("op", .string operation.name) ::
    match operation with
    | .add path value => [("path", .string path), ("value", value)]
    | .remove path => [("path", .string path)]
    | .replace path value => [("path", .string path), ("value", value)]
    | .move source path => [("from", .string source), ("path", .string path)]
    | .copy source path => [("from", .string source), ("path", .string path)]
    | .test path value => [("path", .string path), ("value", value)]

/-- The names of all operations. -/
def names : List String :=
  ["add", "remove", "replace", "move", "copy", "test"]

/-- The parts of an operation with a path and a value. -/
def valueSchema (title : String) : Json.Schema :=
  ⟨"struct variant PatchOperation::" ++ title,
   [.required "path" Json.Decoder.string, .required "value" Json.Decoder.json]⟩

/-- The parts of an operation with a source and a path. -/
def sourceSchema (title : String) : Json.Schema :=
  ⟨"struct variant PatchOperation::" ++ title,
   [.required "from" Json.Decoder.string, .required "path" Json.Decoder.string]⟩

/-- The parts of a removal. -/
def removeSchema : Json.Schema :=
  ⟨"struct variant PatchOperation::Remove", [.required "path" Json.Decoder.string]⟩

/-- Decode the parts of an operation with a path and a value. -/
def decodeValue
    (title : String)
    (make : String → Json → PatchOperation)
    (draft : Json.Draft) :
    Json.Reading PatchOperation := do
  let parts ← (valueSchema title).parts .buffer draft
  let path ← parts.required "path" Json.Decoder.string
  let value ← parts.required "value" Json.Decoder.json
  .ok (make path value)

/-- Decode the parts of an operation with a source and a path. -/
def decodeSource
    (title : String)
    (make : String → String → PatchOperation)
    (draft : Json.Draft) :
    Json.Reading PatchOperation := do
  let parts ← (sourceSchema title).parts .buffer draft
  let source ← parts.required "from" Json.Decoder.string
  let path ← parts.required "path" Json.Decoder.string
  .ok (make source path)

/-- Decode the parts of a removal. -/
def decodeRemove (draft : Json.Draft) : Json.Reading PatchOperation := do
  let parts ← removeSchema.parts .buffer draft
  let path ← parts.required "path" Json.Decoder.string
  .ok (.remove path)

/-- Decode the parts of an operation whose name is known. -/
def decodeParts (name : String) (draft : Json.Draft) : Json.Reading PatchOperation :=
  match name with
  | "add" => decodeValue "Add" .add draft
  | "remove" => decodeRemove draft
  | "replace" => decodeValue "Replace" .replace draft
  | "move" => decodeSource "Move" .move draft
  | "copy" => decodeSource "Copy" .copy draft
  | _ => decodeValue "Test" .test draft

/-- Decode an operation. -/
def decode : Json.Decoder PatchOperation := fun route draft => do
  let (name, rest) ← Json.Decoder.tagged "PatchOperation" "op" names route draft
  (decodeParts name rest).whole

end PatchOperation

namespace Patch

/-- The wire form of a patch. -/
def encode (patch : Patch) : Json :=
  .array (patch.map PatchOperation.encode)

/-- Decode a patch. -/
def decode : Json.Decoder Patch :=
  Json.Decoder.list PatchOperation.decode

end Patch

end AgentWire

import AgentWire.Chat.Message
import AgentWire.Patch
import AgentWire.Problem

namespace AgentWire.Chat

/-!
# Shared state as data items

A state document and a patch travel as data items that hold their JSON text.
-/

/-- The media type of a state document. -/
def snapshotType : String := "application/json"

/-- The media type of a patch. -/
def deltaType : String := "application/json-patch+json"

/-- The item of a state document. -/
def encodeSnapshot (document : Json) : ContentItem :=
  .data snapshotType document.bytes

/-- The item of a patch. -/
def encodeDelta (patch : Patch) : ContentItem :=
  .data deltaType patch.encode.bytes

/-- The state document in some bytes. -/
def decodeSnapshot (bytes : Text.Bytes) : Except Problem Json :=
  (Json.Decoder.json.bytes bytes).mapError fun refusal =>
    .malformed "snapshot" refusal.message

/-- The patch in some bytes. -/
def decodeDelta (bytes : Text.Bytes) : Except Problem Patch :=
  (Patch.decode.bytes bytes).mapError fun refusal =>
    .malformed "delta" refusal.message

/-- What a state item carries. -/
inductive StatePayload where
  | snapshot (document : Json)
  | delta (patch : Patch)
  deriving Repr, DecidableEq

/-- The state in an item; other items carry none. -/
def decodeState : ContentItem → Except Problem (Option StatePayload)
  | .data mediaType bytes =>
      if mediaType = snapshotType then do
        let document ← decodeSnapshot bytes
        .ok (some (.snapshot document))
      else if mediaType = deltaType then do
        let patch ← decodeDelta bytes
        .ok (some (.delta patch))
      else
        .ok none
  | _ => .ok none

/-- The property that marks updates with a state document. -/
def snapshotFlag : String := "is_state_snapshot"

/-- The property that marks updates with a patch. -/
def deltaFlag : String := "is_state_delta"

end AgentWire.Chat

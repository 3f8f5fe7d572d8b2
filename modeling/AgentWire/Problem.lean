namespace AgentWire

/-!
# Problems with wire data

What can be wrong with an event, a request or a payload.
-/

/-- Why a value of the protocol cannot be encoded, decoded or accepted. -/
inductive Problem where
  | validation (message : String)
  | serialization (message : String)
  | invalidEventType (name : String)
  | malformed (field message : String)
  | unregisteredType (typeName : String)
  | missingField (field : String)
  deriving Repr, DecidableEq

namespace Problem

/-- The name of a problem. -/
def name : Problem → String
  | .validation _ => "Validation"
  | .serialization _ => "Serialization"
  | .invalidEventType _ => "InvalidEventType"
  | .malformed .. => "MalformedPayload"
  | .unregisteredType _ => "UnregisteredType"
  | .missingField _ => "MissingField"

/-- The wording of a problem. -/
def message : Problem → String
  | .validation text => "Validation error: " ++ text
  | .serialization text => "Serialization error: " ++ text
  | .invalidEventType name => "Invalid event type: " ++ name
  | .malformed field text => "Malformed payload in '" ++ field ++ "': " ++ text
  | .unregisteredType typeName =>
      "No serializer registered for custom payload type '" ++ typeName ++ "'"
  | .missingField field => "Missing required field: " ++ field

end Problem

end AgentWire

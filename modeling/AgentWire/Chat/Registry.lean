import AgentWire.Chat.Item
import AgentWire.Json.Writer
import AgentWire.Problem

namespace AgentWire.Chat

/-!
# Serializers of application values

A registry maps the names of application types to serializers.  A value of a
type without one is a problem and never dropped.
-/

/-- How the values of one application type become documents. -/
structure Serializer where
  typeName : String
  serialize : Json → Except Problem Json

/-- The serializers of some application types. -/
structure Registry where
  serializers : List Serializer

namespace Registry

/-- No serializers. -/
def empty : Registry :=
  ⟨[]⟩

/-- Add a serializer; an earlier one of the same type is replaced. -/
def register (registry : Registry) (serializer : Serializer) : Registry :=
  ⟨serializer :: registry.serializers.filter (·.typeName != serializer.typeName)⟩

/-- How many types have a serializer. -/
def size (registry : Registry) : Nat :=
  registry.serializers.length

/-- The serializer of a type. -/
def find? (registry : Registry) (typeName : String) : Option Serializer :=
  registry.serializers.find? (·.typeName == typeName)

/-- Whether a type has a serializer. -/
def contains (registry : Registry) (typeName : String) : Bool :=
  (registry.find? typeName).isSome

/-- The document of a payload. -/
def serialize (registry : Registry) : Payload → Except Problem Json
  | .json value => .ok value
  | .custom value =>
      match registry.find? value.typeName with
      | none => .error (.unregisteredType value.typeName)
      | some serializer => serializer.serialize value.content

/-- The documents of some arguments; the first one that cannot be serialized is the problem. -/
def serializeEntries
    (registry : Registry) :
    List (String × Payload) → Except Problem (List (String × Json))
  | [] => .ok []
  | (name, payload) :: rest => do
      let value ← registry.serialize payload
      let values ← registry.serializeEntries rest
      .ok ((name, value) :: values)

/-- The object of all arguments. -/
def serializeArguments (registry : Registry) (arguments : Arguments) : Except Problem Json := do
  let members ← registry.serializeEntries arguments
  .ok (.object members)

/-- The text that a tool message carries for a result; `null` is the empty text. -/
def serializeContent (registry : Registry) (payload : Payload) : Except Problem String := do
  match ← registry.serialize payload with
  | .null => .ok ""
  | value => .ok value.text

/-- How a registry shows itself. -/
def describe (registry : Registry) : String :=
  "TypeRegistry \x7b registered: " ++ toString registry.size ++ " \x7d"

end Registry

end AgentWire.Chat

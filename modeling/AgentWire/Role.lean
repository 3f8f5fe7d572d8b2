import AgentWire.Json.Record

namespace AgentWire

/-!
# Roles

Who a message comes from.  Wire messages and chat messages know the same roles.
-/

/-- The sender of a message. -/
inductive Role where
  | developer
  | system
  | assistant
  | user
  | tool
  deriving Repr, DecidableEq

namespace Role

/-- The name of a role on the wire. -/
def name : Role → String
  | .developer => "developer"
  | .system => "system"
  | .assistant => "assistant"
  | .user => "user"
  | .tool => "tool"

/-- All roles, in the order in which wire messages list them. -/
def all : List Role :=
  [.developer, .system, .assistant, .user, .tool]

/-- The names of all roles. -/
def names : List String :=
  all.map name

/-- The role of a name. -/
def ofName? (text : String) : Option Role :=
  all.find? (·.name == text)

/-- Decode a role; a message about an unknown one lists the known ones in this order. -/
def decodeAmong (known : List Role) : Json.Decoder Role := fun route draft => do
  let name ← Json.Decoder.bareVariant (known.map name) route draft
  match known.find? (·.name == name) with
  | some role => .ok role
  | none => .mismatched (.unknownVariant name (known.map Role.name))

/-- Decode the role of a wire message. -/
def decode : Json.Decoder Role :=
  decodeAmong all

/-- All roles, in the order in which chat applications list them. -/
def chatOrder : List Role :=
  [.system, .developer, .user, .assistant, .tool]

/-- Decode the role of a chat message. -/
def decodeChat : Json.Decoder Role :=
  decodeAmong chatOrder

end Role

end AgentWire

import AgentWire.Dictionary
import AgentWire.Json.Equality
import AgentWire.Text.Utf8

namespace AgentWire.Chat

/-!
# Content items

The units that messages and updates are made of.
-/

/--
An application value.  Its type's name finds its serializer, and nothing else
looks inside it.  Two such values are the same only if they are one value.
-/
structure CustomPayload where
  typeName : String
  identity : Nat
  content : Json
  deriving Repr, DecidableEq

/-- An argument or a result of a function. -/
inductive Payload where
  | json (value : Json)
  | custom (value : CustomPayload)
  deriving Repr, DecidableEq

namespace Payload

/-- The document of a plain payload. -/
def json? : Payload → Option Json
  | .json value => some value
  | .custom _ => none

/-- Whether two payloads are the same: documents by value, custom ones by identity. -/
def same : Payload → Payload → Bool
  | .json left, .json right => left == right
  | .custom left, .custom right => left.identity == right.identity
  | _, _ => false

end Payload

/-- Named arguments of a function. -/
abbrev Arguments := Dictionary Payload

/-- A function call by the model; it may have been made without arguments. -/
structure FunctionCall where
  callId : String
  name : String
  arguments : Option Arguments
  deriving Repr, DecidableEq

namespace FunctionCall

/-- The plain argument of a name. -/
def argument? (call : FunctionCall) (name : String) : Option Json :=
  (call.arguments.bind (·.get? name)).bind Payload.json?

end FunctionCall

/-- The answer to a function call. -/
structure FunctionResult where
  callId : String
  value : Payload
  deriving Repr, DecidableEq

/-- One unit of content. -/
inductive ContentItem where
  | text (words : String)
  | error (message : String) (code : Option String)
  | call (made : FunctionCall)
  | result (given : FunctionResult)
  | data (mediaType : String) (bytes : Text.Bytes)
  deriving Repr, DecidableEq

namespace ContentItem

/-- The text of a text item. -/
def text? : ContentItem → Option String
  | .text words => some words
  | _ => none

/-- The call of a call item. -/
def call? : ContentItem → Option FunctionCall
  | .call made => some made
  | _ => none

/-- The result of a result item. -/
def result? : ContentItem → Option FunctionResult
  | .result given => some given
  | _ => none

end ContentItem

/-- The texts of some items, one after the other. -/
def textOf (items : List ContentItem) : String :=
  String.join (items.filterMap ContentItem.text?)

end AgentWire.Chat

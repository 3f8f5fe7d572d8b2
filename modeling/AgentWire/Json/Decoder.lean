import AgentWire.Json.Reader

namespace AgentWire.Json

/-!
# Decoding drafts

A decoder turns a draft into a value of the domain, or says why it cannot.  It
meets the parts of a draft in reading order.  The route tells where the draft
comes from: straight from a text, whose nesting is limited, from a document, or
from parts that were set aside while a tag was looked for.
-/

/-- Where a draft comes from; for a text, how many more levels it may open. -/
inductive Route where
  | text (levels : Nat)
  | tree
  | buffer
  deriving Repr, DecidableEq

namespace Route

/-- How deeply a text may nest arrays and objects. -/
def deepest : Nat := 127

/-- The route of a whole text. -/
def wholeText : Route :=
  .text deepest

/-- Open one array or object. -/
def enter : Route → Reading Route
  | .text 0 => .flawed .tooDeep
  | .text (levels + 1) => .ok (.text levels)
  | .tree => .ok .tree
  | .buffer => .ok .buffer

end Route

/-- A decoder of drafts. -/
abbrev Decoder (α : Type) := Route → Draft → Reading α

namespace Draft

/-- What a value is called in a message, unless it cannot be read. -/
def found : Draft → Reading Found
  | .null => .ok .null
  | .bool value => .ok (.bool value)
  | .number value => .ok (.number value)
  | .string value => .ok (.string value)
  | .array _ _ => .ok .sequence
  | .object _ _ => .ok .map
  | .spoilt flaw => .flawed flaw
  | .broken spot => .flawed spot.read

/-- The value is not of the expected kind. -/
def refuse {α : Type} (draft : Draft) (expected : String) : Reading α := do
  let found ← draft.found
  .mismatched (.wrongType found expected)

/-- An array must have been closed. -/
def closed : Option Break → Reading Unit
  | none => .ok ()
  | some spot => .flawed spot.read

/-- An object must have been closed; else the name of one more member was due. -/
def closedMembers (stop : Option Break) : Reading Unit :=
  (closed stop).within .nameless

/-- Note the member that leads to a value, if the value was reached. -/
def inMember
    {α : Type}
    (name : String)
    (value : Draft)
    (reading : Reading α) :
    Reading α :=
  if value.isReached then reading.within (.member name) else reading

/-- An array or object that is passed over must have been closed. -/
def closedUnread : Option Break → Reading Unit
  | none => .ok ()
  | some spot => .flawed spot.passed

mutual

/-- Pass over a value: only where its text breaks is there a flaw. -/
def passOver : Draft → Reading Unit
  | .array items stop => do
      passOverItems items
      closedUnread stop
  | .object members stop => do
      passOverMembers members
      closedUnread stop
  | .broken spot => .flawed spot.passed
  | _ => .ok ()

/-- Pass over items. -/
def passOverItems : List Draft → Reading Unit
  | [] => .ok ()
  | item :: rest => do
      passOver item
      passOverItems rest

/-- Pass over members. -/
def passOverMembers : List (Key × Draft) → Reading Unit
  | [] => .ok ()
  | (_, value) :: rest => do
      passOver value
      passOverMembers rest

end

mutual

/-- Read a value as a free-form document. -/
def document : Decoder Json
  | _, .null => .ok .null
  | _, .bool value => .ok (.bool value)
  | _, .number value => .ok (.number value)
  | _, .string value => .ok (.string value)
  | route, .array items stop => do
      let inner ← route.enter
      let values ← documentItems inner 0 items
      closed stop
      .ok (.array values)
  | route, .object members stop => do
      let inner ← route.enter
      let values ← documentMembers inner members
      closedMembers stop
      .ok (Json.ofMembers values)
  | _, .spoilt flaw => .flawed flaw
  | _, .broken spot => .flawed spot.read

/-- Read items as documents. -/
def documentItems (route : Route) (index : Nat) : List Draft → Reading (List Json)
  | [] => .ok []
  | item :: rest => do
      let value ← (document route item).within (.item index)
      let values ← documentItems route (index + 1) rest
      .ok (value :: values)

/-- Read members as documents, in text order. -/
def documentMembers (route : Route) : List (Key × Draft) → Reading (List (String × Json))
  | [] => .ok []
  | (.spoilt flaw, _) :: _ => Reading.within .nameless (.flawed flaw)
  | (.name name, member) :: rest => do
      let value ← inMember name member (document route member)
      let values ← documentMembers route rest
      .ok ((name, value) :: values)

end

end Draft

namespace Decoder

/-- A free-form document. -/
def json : Decoder Json :=
  Draft.document

/-- A text. -/
def string : Decoder String
  | _, .string value => .ok value
  | _, draft => draft.refuse "a string"

/-- An unsigned word of 64 bits. -/
def word : Decoder UInt64
  | _, .number (.integer kept) =>
      match kept.toWord? with
      | some value => .ok value
      | none => .mismatched (.wrongValue (.number (.integer kept)) "u64")
  | _, draft => draft.refuse "u64"

/-- A signed word of 64 bits. -/
def signed : Decoder Int64
  | _, .number (.integer kept) =>
      match kept.toSigned? with
      | some value => .ok value
      | none => .mismatched (.wrongValue (.number (.integer kept)) "i64")
  | _, draft => draft.refuse "i64"

/-- A value or `null`. -/
def optional {α : Type} (decoder : Decoder α) : Decoder (Option α)
  | _, .null => .ok none
  | route, draft => do
      let value ← decoder route draft
      .ok (some value)

/-- Decode items one after the other. -/
def items
    {α : Type}
    (decoder : Decoder α)
    (route : Route)
    (index : Nat) :
    List Draft → Reading (List α)
  | [] => .ok []
  | item :: rest => do
      let value ← (decoder route item).within (.item index)
      let values ← items decoder route (index + 1) rest
      .ok (value :: values)

/-- A list of values. -/
def list {α : Type} (decoder : Decoder α) : Decoder (List α)
  | route, .array drafts stop => do
      let inner ← route.enter
      let values ← items decoder inner 0 drafts
      Draft.closed stop
      .ok values
  | _, draft => draft.refuse "a sequence"

/-- Only whether a value can be decoded. -/
def check {α : Type} (decoder : Decoder α) : Decoder Unit :=
  fun route draft => do
    let _ ← decoder route draft
    .ok ()

/-- Decode the whole of a text. -/
def sheet {α : Type} (decoder : Decoder α) (sheet : Sheet) : Reading α := do
  let value ← decoder .wholeText sheet.root
  if sheet.trailing then
    .flawed .trailingCharacters
  else
    .ok value

/-- Decode a text. -/
def text {α : Type} (decoder : Decoder α) (text : String) : Reading α :=
  decoder.sheet (readText text)

/-- Decode a text given as bytes. -/
def bytes {α : Type} (decoder : Decoder α) (bytes : Text.Bytes) : Reading α :=
  decoder.sheet (readBytes bytes)

/-- Decode a document. -/
def tree {α : Type} (decoder : Decoder α) (document : Json) : Reading α :=
  decoder .tree (.ofJson document)

end Decoder

end AgentWire.Json

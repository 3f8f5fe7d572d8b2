import AgentWire.Json.Fault

namespace AgentWire.Json

/-!
# Drafts

A draft is a JSON text as it was read: members in text order, repeated names
included, and marks where the text is spoilt or stops making sense.  A decoder
walks a draft in reading order and so meets a wrong value before a flaw that
stands behind it.  What a flaw is called can depend on whether the value around
it is read or passed over.
-/

/-- Where a text stops making sense, seen from the value that is due. -/
inductive Site where
  /-- Between the name of a member and its colon. -/
  | colon
  /-- Where the value should begin. -/
  | start
  | inside
  deriving Repr, DecidableEq

/-- Where a text stops making sense, as a reader and as one who passes over calls it. -/
structure Break where
  read : Flaw
  passed : Flaw
  site : Site := .inside
  deriving Repr, DecidableEq

namespace Break

/-- A break that is called the same by both. -/
def both (flaw : Flaw) : Break :=
  { read := flaw, passed := flaw }

/-- The break at another site. -/
def atSite (spot : Break) (site : Site) : Break :=
  { spot with site }

end Break

/-- A name of a member, or the flaw that makes it unreadable. -/
inductive Key where
  | name (value : String)
  | spoilt (flaw : Flaw)
  deriving Repr, DecidableEq

/--
A JSON text as it was read.  A spoilt value can be passed over and not be read.
A broken one is the last that was read.  An array or object with a `stop` was
not closed.
-/
inductive Draft where
  | null
  | bool (value : Bool)
  | number (value : Number)
  | string (value : String)
  | array (items : List Draft) (stop : Option Break)
  | object (members : List (Key × Draft)) (stop : Option Break)
  | spoilt (flaw : Flaw)
  | broken (spot : Break)
  deriving Repr, Inhabited

namespace Draft

/-- Whether the colon before a value was found. -/
def isReached : Draft → Bool
  | .broken spot => spot.site != .colon
  | _ => true

mutual

/-- The draft of a document. -/
def ofJson : Json → Draft
  | .null => .null
  | .bool value => .bool value
  | .number value => .number value
  | .string value => .string value
  | .array items => .array (ofItems items) none
  | .object members => .object (ofMembers members) none

/-- The drafts of items. -/
def ofItems : List Json → List Draft
  | [] => []
  | item :: rest => ofJson item :: ofItems rest

/-- The drafts of members. -/
def ofMembers : List (String × Json) → List (Key × Draft)
  | [] => []
  | (name, value) :: rest => (.name name, ofJson value) :: ofMembers rest

end

end Draft

/-- A whole text: its value, and whether something stands behind it. -/
structure Sheet where
  root : Draft
  trailing : Bool
  deriving Repr, Inhabited

end AgentWire.Json

import AgentWire.Decimal.Shortest
import AgentWire.Dictionary

namespace AgentWire

/-!
# JSON documents

Numbers are integers of 64 bits or doubles.  The members of an object are a
list, so that the same type serves free-form documents, whose members are
sorted by name and occur once, and records on the wire, whose members stand in
the order of their declaration.  `Canonical` says which of the two it is.
-/

/-- An integer that fits a signed or an unsigned word of 64 bits. -/
structure Integer where
  value : Int
  low : -9223372036854775808 ≤ value := by decide
  high : value < 18446744073709551616 := by decide
  deriving Repr, DecidableEq

namespace Integer

/-- The integer of an unsigned word. -/
def ofWord (word : UInt64) : Integer where
  value := word.toNat
  low := by omega
  high := by
    have bound := word.toNat_lt
    omega

/-- The integer of a signed word. -/
def ofSigned (word : Int64) : Integer where
  value := word.toInt
  low := by
    have bound := word.le_toInt
    omega
  high := by
    have bound := word.toInt_lt
    omega

/-- The integer of this value, if it fits. -/
def ofInt? (value : Int) : Option Integer :=
  if fits : -9223372036854775808 ≤ value ∧ value < 18446744073709551616 then
    some ⟨value, fits.1, fits.2⟩
  else
    none

/-- The unsigned word of an integer that is not negative. -/
def toWord? (number : Integer) : Option UInt64 :=
  if 0 ≤ number.value then
    some (UInt64.ofNat number.value.toNat)
  else
    none

/-- The signed word of an integer below 2 ^ 63. -/
def toSigned? (number : Integer) : Option Int64 :=
  if number.value < 9223372036854775808 then
    some (Int64.ofInt number.value)
  else
    none

end Integer

/-- A number: an integer kept exactly, or a double. -/
inductive Number where
  | integer (value : Integer)
  | double (value : Decimal.Binary64)
  deriving Repr, DecidableEq

/-- A JSON document. -/
inductive Json where
  | null
  | bool (value : Bool)
  | number (value : Number)
  | string (value : String)
  | array (items : List Json)
  | object (members : List (String × Json))
  deriving Repr, Inhabited

namespace Json

/-- The document of an unsigned word. -/
def word (value : UInt64) : Json :=
  .number (.integer (.ofWord value))

/-- The document of a signed word. -/
def signed (value : Int64) : Json :=
  .number (.integer (.ofSigned value))

/-- The text of a string document. -/
def asString? : Json → Option String
  | .string value => some value
  | _ => none

/-- The value of the first member with a name. -/
def get? (document : Json) (name : String) : Option Json :=
  match document with
  | .object members => members.lookup name
  | _ => none

/-- The free-form object of these members. -/
def ofMembers (members : List (String × Json)) : Json :=
  .object (Dictionary.ofEntries members)

/-- A member that is left out when there is no value. -/
def member?
    {α : Type}
    (name : String)
    (value : Option α)
    (encode : α → Json) :
    List (String × Json) :=
  match value with
  | some present => [(name, encode present)]
  | none => []

/-- A list that is left out when it is empty. -/
def listMember?
    {α : Type}
    (name : String)
    (values : List α)
    (encode : α → Json) :
    List (String × Json) :=
  if values.isEmpty then [] else [(name, .array (values.map encode))]

/-- A value, or `null` when there is none. -/
def orNull
    {α : Type}
    (value : Option α)
    (encode : α → Json) :
    Json :=
  match value with
  | some present => encode present
  | none => .null

mutual

/-- A free-form document: every object has its members sorted by name, each once. -/
def canonical : Json → Bool
  | .array items => canonicalItems items
  | .object members =>
      Dictionary.sortedNames (members.map (·.1)) && canonicalMembers members
  | _ => true

/-- Every document of a list is canonical. -/
def canonicalItems : List Json → Bool
  | [] => true
  | item :: rest => canonical item && canonicalItems rest

/-- Every member of a list is canonical. -/
def canonicalMembers : List (String × Json) → Bool
  | [] => true
  | (_, value) :: rest => canonical value && canonicalMembers rest

end

mutual

/-- A document without doubles. -/
def wholeNumbers : Json → Bool
  | .number (.double _) => false
  | .array items => wholeNumbersItems items
  | .object members => wholeNumbersMembers members
  | _ => true

/-- No document of a list holds a double. -/
def wholeNumbersItems : List Json → Bool
  | [] => true
  | item :: rest => wholeNumbers item && wholeNumbersItems rest

/-- No member of a list holds a double. -/
def wholeNumbersMembers : List (String × Json) → Bool
  | [] => true
  | (_, value) :: rest => wholeNumbers value && wholeNumbersMembers rest

end

mutual

/-- How deeply arrays and objects are nested. -/
def depth : Json → Nat
  | .array items => depthItems items + 1
  | .object members => depthMembers members + 1
  | _ => 0

/-- The greatest depth in a list. -/
def depthItems : List Json → Nat
  | [] => 0
  | item :: rest => max (depth item) (depthItems rest)

/-- The greatest depth among members. -/
def depthMembers : List (String × Json) → Nat
  | [] => 0
  | (_, value) :: rest => max (depth value) (depthMembers rest)

end

end Json

end AgentWire

import AgentWire.Text.Quoted
import AgentWire.Json.Basic

namespace AgentWire.Json

/-!
# What can be wrong with a JSON text

A `Flaw` is a defect of the text itself.  A `Mismatch` is a value that is well
written and does not fit where it stands.  A `Refusal` is one of the two with
the place where it was met.
-/

/-- A defect of a JSON text. -/
inductive Flaw where
  | endInValue
  | endInArray
  | endInObject
  | endInString
  | valueExpected
  | wordExpected
  | colonExpected
  | commaOrBracketExpected
  | commaOrBraceExpected
  | keyExpected
  | trailingComma
  | trailingCharacters
  | invalidNumber
  | numberOutOfRange
  | invalidEscape
  | endInPair
  | loneSurrogate
  | controlCharacter
  | invalidCodePoint
  | tooDeep
  deriving Repr, DecidableEq

namespace Flaw

/-- The wording of a flaw. -/
def message : Flaw → String
  | .endInValue => "EOF while parsing a value"
  | .endInArray => "EOF while parsing a list"
  | .endInObject => "EOF while parsing an object"
  | .endInString => "EOF while parsing a string"
  | .valueExpected => "expected value"
  | .wordExpected => "expected ident"
  | .colonExpected => "expected `:`"
  | .commaOrBracketExpected => "expected `,` or `]`"
  | .commaOrBraceExpected => "expected `,` or `\x7d`"
  | .keyExpected => "key must be a string"
  | .trailingComma => "trailing comma"
  | .trailingCharacters => "trailing characters"
  | .invalidNumber => "invalid number"
  | .numberOutOfRange => "number out of range"
  | .invalidEscape => "invalid escape"
  | .endInPair => "unexpected end of hex escape"
  | .loneSurrogate => "lone leading surrogate in hex escape"
  | .controlCharacter =>
      "control character (\\u0000-\\u001F) found while parsing a string"
  | .invalidCodePoint => "invalid unicode code point"
  | .tooDeep => "recursion limit exceeded"

/-- The flaws of words and numbers that break off. -/
def ofBareTokens : List Flaw :=
  [.wordExpected, .invalidNumber, .endInValue]

end Flaw

/-- A value as a message about it names it. -/
inductive Found where
  | null
  | bool (value : Bool)
  | number (value : Number)
  | string (value : String)
  | sequence
  | map
  deriving Repr, DecidableEq

namespace Found

/-- The wording of a value that was found. -/
def message : Found → String
  | .null => "null"
  | .bool true => "boolean `true`"
  | .bool false => "boolean `false`"
  | .number (.integer kept) => "integer `" ++ toString kept.value ++ "`"
  | .number (.double x) =>
      "floating point `" ++ String.ofList (x.write .json) ++ "`"
  | .string value => "string " ++ Text.quote value
  | .sequence => "sequence"
  | .map => "map"

end Found

/-- A value that does not fit where it stands. -/
inductive Mismatch where
  | missingField (name : String)
  | duplicateField (name : String)
  | unknownVariant (name : String) (known : List String)
  | wrongType (found : Found) (expected : String)
  | wrongValue (found : Found) (expected : String)
  | wrongLength (length : Nat) (expected : String)
  deriving Repr, DecidableEq

namespace Mismatch

/-- The names that were possible, as a message lists them. -/
def listing : List String → String
  | [only] => "`" ++ only ++ "`"
  | [first, second] => "`" ++ first ++ "` or `" ++ second ++ "`"
  | names =>
      "one of " ++ String.intercalate ", " (names.map fun name => "`" ++ name ++ "`")

/-- The wording of a mismatch. -/
def message : Mismatch → String
  | .missingField name => "missing field `" ++ name ++ "`"
  | .duplicateField name => "duplicate field `" ++ name ++ "`"
  | .unknownVariant name known =>
      "unknown variant `" ++ name ++ "`, expected " ++ listing known
  | .wrongType found expected =>
      "invalid type: " ++ found.message ++ ", expected " ++ expected
  | .wrongValue found expected =>
      "invalid value: " ++ found.message ++ ", expected " ++ expected
  | .wrongLength length expected =>
      "invalid length " ++ toString length ++ ", expected " ++ expected

end Mismatch

/-- What is wrong with a text: the text itself, or a value in it. -/
inductive Fault where
  | flaw (defect : Flaw)
  | mismatch (misfit : Mismatch)
  deriving Repr, DecidableEq

namespace Fault

/-- The wording of a fault. -/
def message : Fault → String
  | .flaw defect => defect.message
  | .mismatch misfit => misfit.message

end Fault

/-- One step on the way from a document to a value inside it. -/
inductive Step where
  | member (name : String)
  | item (index : Nat)
  /-- A member whose name could not be read. -/
  | nameless
  deriving Repr, DecidableEq

/-- A fault, with the way to the value that has it. -/
structure Refusal where
  path : List Step
  fault : Fault
  deriving Repr, DecidableEq

namespace Refusal

/-- The wording of a refusal, without its place. -/
def message (refusal : Refusal) : String :=
  refusal.fault.message

/-- A step of a path; steps by name are set off by a point. -/
def showStep (first : Bool) : Step → String
  | .member name => (if first then "" else ".") ++ name
  | .item index => "[" ++ toString index ++ "]"
  | .nameless => if first then "?" else ".?"

/-- A path as one text. -/
def showPath : List Step → String
  | [] => ""
  | first :: rest =>
      showStep true first ++ String.join (rest.map (showStep false))

/-- The wording of a refusal after its place, if its path says anything. -/
def placedMessage (refusal : Refusal) : String :=
  if refusal.path.all (· = .nameless) then
    refusal.message
  else
    showPath refusal.path ++ ": " ++ refusal.message

/-- The refusal seen from one step further out. -/
def under (step : Step) (refusal : Refusal) : Refusal :=
  { refusal with path := step :: refusal.path }

end Refusal

/-- The result of reading: a value, or why there is none. -/
abbrev Reading (α : Type) := Except Refusal α

namespace Reading

/-- Refuse because of a flaw. -/
def flawed {α : Type} (flaw : Flaw) : Reading α :=
  .error ⟨[], .flaw flaw⟩

/-- Refuse because of a mismatch. -/
def mismatched {α : Type} (mismatch : Mismatch) : Reading α :=
  .error ⟨[], .mismatch mismatch⟩

/-- Note the step that leads to what is read. -/
def within {α : Type} (step : Step) (reading : Reading α) : Reading α :=
  reading.mapError (·.under step)

/-- Forget where inside a value the fault was met. -/
def whole {α : Type} (reading : Reading α) : Reading α :=
  reading.mapError fun refusal => { refusal with path := [] }

end Reading

end AgentWire.Json

import AgentWire.Json.Basic
import AgentWire.Text.Utf8

namespace AgentWire.Json

/-!
# Compact JSON text

A document has one text: no spaces, members in the order of the list, and only
the quote, the backslash and the controls below the space escaped.
-/

/-- A character inside a string. -/
def writeChar (c : Char) : List Char :=
  if c = '"' then ['\\', '"']
  else if c = '\\' then ['\\', '\\']
  else if c = '\x08' then ['\\', 'b']
  else if c = '\t' then ['\\', 't']
  else if c = '\n' then ['\\', 'n']
  else if c = '\x0c' then ['\\', 'f']
  else if c = '\r' then ['\\', 'r']
  else if c.toNat < 32 then
    ['\\', 'u', '0', '0', Text.hexDigit (c.toNat / 16), Text.hexDigit (c.toNat % 16)]
  else [c]

/-- A string between quotes. -/
def writeString (text : String) : List Char :=
  '"' :: text.toList.flatMap writeChar ++ ['"']

/-- The digits of an integer, with its sign when it is negative. -/
def writeInteger : Int → List Char
  | .ofNat value => Nat.toDigits 10 value
  | .negSucc value => '-' :: Nat.toDigits 10 (value + 1)

/-- A number. -/
def writeNumber : Number → List Char
  | .integer whole => writeInteger whole.value
  | .double x => x.write .json

mutual

/-- A document. -/
def write : Json → List Char
  | .null => ['n', 'u', 'l', 'l']
  | .bool true => ['t', 'r', 'u', 'e']
  | .bool false => ['f', 'a', 'l', 's', 'e']
  | .number value => writeNumber value
  | .string value => writeString value
  | .array items => '[' :: writeItems items
  | .object members => '\x7b' :: writeMembers members

/-- The items of an array and its closing bracket. -/
def writeItems : List Json → List Char
  | [] => [']']
  | item :: rest => write item ++ writeMoreItems rest

/-- The items after the first one. -/
def writeMoreItems : List Json → List Char
  | [] => [']']
  | item :: rest => ',' :: write item ++ writeMoreItems rest

/-- The members of an object and its closing brace. -/
def writeMembers : List (String × Json) → List Char
  | [] => ['\x7d']
  | (name, value) :: rest =>
      writeString name ++ ':' :: write value ++ writeMoreMembers rest

/-- The members after the first one. -/
def writeMoreMembers : List (String × Json) → List Char
  | [] => ['\x7d']
  | (name, value) :: rest =>
      ',' :: writeString name ++ ':' :: write value ++ writeMoreMembers rest

end

/-- The compact text of a document. -/
def text (document : Json) : String :=
  String.ofList document.write

/-- The bytes of the compact text of a document. -/
def bytes (document : Json) : Text.Bytes :=
  Text.Utf8.encode document.text

end AgentWire.Json

import AgentWire.Decimal.Word
import AgentWire.Text.Percent
import AgentWire.Text.Split

namespace AgentWire.Http

/-!
# Queries

A query is a list of names with values.  A plus sign stands for a space.
-/

/-- The replacement for bytes that are no text. -/
def replacement : Char := '\uFFFD'

/-- Some bytes as a text; what is no text is replaced. -/
def readLossy (bytes : Text.Bytes) : String :=
  String.ofList <|
    (Text.Utf8.glyphs bytes).map fun
      | .char c => c
      | .stray _ => replacement

/-- A name or a value of a query. -/
def decodePart (text : List Char) : String :=
  readLossy (Text.percentDecode (text.map fun c => if c = '+' then ' ' else c))

/-- The names and values of a query, in order. -/
def queryPairs (query : String) : List (String × String) :=
  ((Text.split '&' query).filter (!·.isEmpty)).map fun part =>
    let (name, value) := Text.cut '=' part.toList
    (decodePart name, decodePart (value.getD []))

/-- Why a query cannot be used. -/
inductive QueryFault where
  | repeated (name : String)
  | notTruthValue (name : String)
  | notWord (name : String) (fault : Decimal.WordFault)
  deriving Repr, DecidableEq

namespace QueryFault

/-- The wording of a fault. -/
def message : QueryFault → String
  | .repeated name => "duplicate field \x60" ++ name ++ "\x60"
  | .notTruthValue name => name ++ ": provided string was not \x60true\x60 or \x60false\x60"
  | .notWord name fault => name ++ ": " ++ fault.message

end QueryFault

end AgentWire.Http

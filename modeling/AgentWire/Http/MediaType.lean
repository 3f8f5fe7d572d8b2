import AgentWire.Text.Split

namespace AgentWire.Http

/-!
# Media types

A media type is two tokens with a slash between, and perhaps parameters.  The
text behind the first semicolon is read one character at a time; it is a list of
parameters if no character is out of place and none of them breaks off.
-/

/-- The marks that tokens may hold besides letters and digits. -/
def tokenMarks : List Char :=
  ['!', '#', '$', '%', '&', '\'', '*', '+', '-', '.', '^', '_', '\x60', '|', '~']

/-- A character of a token. -/
def isTokenChar (c : Char) : Bool :=
  c.isAlphanum || tokenMarks.contains c

/-- A text that is a token. -/
def isToken (text : List Char) : Bool :=
  !text.isEmpty && text.all isTokenChar

/-- A character that the value of a header may hold if it is to be read as text. -/
def isHeaderChar (c : Char) : Bool :=
  c = '\t' || (' ' ≤ c && c ≤ '~')

/-- How far a list of parameters was read. -/
inductive ParameterState where
  | before
  | name
  | valueStart
  | value
  | quoteStart
  | quoted
  | behindQuote
  | misplaced
  deriving Repr, DecidableEq

namespace ParameterState

/-- The next character of a list of parameters.  A quoted value is not empty. -/
def step (state : ParameterState) (c : Char) : ParameterState :=
  match state with
  | .before => if c = ' ' then .before else if isTokenChar c then .name else .misplaced
  | .name => if c = '=' then .valueStart else if isTokenChar c then .name else .misplaced
  | .valueStart => if c = '"' then .quoteStart else if isTokenChar c then .value else .misplaced
  | .value => if c = ';' then .before else if isTokenChar c then .value else .misplaced
  | .quoteStart => if c = '\t' then .misplaced else .quoted
  | .quoted => if c = '"' then .behindQuote else if c = '\t' then .misplaced else .quoted
  | .behindQuote =>
      if c = ';' then .before else if c = ' ' then .behindQuote else .misplaced
  | .misplaced => .misplaced

/-- Whether a list of parameters may end here. -/
def mayEnd : ParameterState → Bool
  | .before | .valueStart | .value | .behindQuote => true
  | .name | .quoteStart | .quoted | .misplaced => false

end ParameterState

/-- A list of parameters, each a token and a value that may be quoted. -/
def isParameters (text : List Char) : Bool :=
  (text.foldl ParameterState.step .before).mayEnd

/-- A media type. -/
structure MediaType where
  main : String
  /-- What stands before the last plus sign of the second token. -/
  sub : String
  /-- What stands behind that plus sign. -/
  suffix : Option String
  deriving Repr, DecidableEq

namespace MediaType

/-- The second token cut at its last plus sign, if that is not its first character. -/
def cutSuffix (sub : List Char) : List Char × Option (List Char) :=
  match Text.cut '+' sub.reverse with
  | (suffix, some (last :: before)) => ((last :: before).reverse, some suffix.reverse)
  | _ => (sub, none)

/-- The media type with these tokens, whose case is of no account. -/
def ofTokens (main sub : List Char) : MediaType where
  main := Text.lowerAscii (String.ofList main)
  sub := Text.lowerAscii (String.ofList (cutSuffix sub).1)
  suffix := (cutSuffix sub).2.map fun suffix => Text.lowerAscii (String.ofList suffix)

/-- The media type that is written in a text. -/
def ofText? (text : String) : Option MediaType :=
  let (tokens, parameters) := Text.cut ';' text.toList
  match Text.cut '/' tokens with
  | (_, none) => none
  | (main, some sub) =>
      if isToken main && isToken sub && (parameters.all fun behind =>
          behind.all isHeaderChar && isParameters behind) then
        some (ofTokens main sub)
      else
        none

/-- Whether documents have this media type. -/
def isJson (mediaType : MediaType) : Bool :=
  mediaType.main == "application"
    && (mediaType.sub == "json" || mediaType.suffix == some "json")

end MediaType

end AgentWire.Http

import AgentWire.Json.Numeral
import AgentWire.Json.Spelling

namespace AgentWire.Json

/-!
# Reading a JSON text

The reader takes one glyph at a time and keeps a stack of the arrays and objects
that are still open.  It never fails: a text that stops making sense gives a
draft that is broken at that place.
-/

/-- An array or object that is still open; its parts are kept last first. -/
inductive Frame where
  | items (done : List Draft)
  | members (done : List (Key × Draft))
  | member (done : List (Key × Draft)) (key : Key)
  deriving Repr

namespace Frame

/-- The array or object that ends with an unfinished part. -/
def endingIn : Frame → Draft → Draft
  | .items done, last => .array (last :: done).reverse none
  | .member done key, last => .object ((key, last) :: done).reverse none
  | .members done, _ => .object done.reverse none

/-- The array or object that stops before its next part. -/
def stoppingAt : Frame → Break → Draft
  | .items done, spot => .array done.reverse (some spot)
  | .members done, spot => .object done.reverse (some spot)
  | .member done key, spot => .object ((key, .broken spot) :: done).reverse none

end Frame

/-- What may come next. -/
inductive Mode where
  | value
  | firstItem
  | nextItem
  | firstKey
  | nextKey
  | colon (key : Key)
  | separator
  | inKey (spelling : Spelling)
  | inString (spelling : Spelling)
  | inWord (due : List Char) (value : Draft)
  | inNumber (numeral : Numeral)
  | ended (root : Draft)
  | overrun (root : Draft)
  | stopped (root : Draft)
  deriving Repr

/-- A reader between two glyphs. -/
structure Reader where
  frames : List Frame
  mode : Mode
  deriving Repr

namespace Reader

/-- A reader before the first glyph. -/
def start : Reader :=
  ⟨[], .value⟩

/-- Close all open frames around an unfinished part. -/
def stopAround (frames : List Frame) (last : Draft) : Reader :=
  ⟨[], .stopped (frames.foldl (fun part frame => frame.endingIn part) last)⟩

/-- The text stops making sense where a value stands. -/
def stopInValue (frames : List Frame) (spot : Break) : Reader :=
  stopAround frames (.broken spot)

/-- The text stops making sense between two parts of the innermost frame. -/
def stopBetween (frames : List Frame) (spot : Break) : Reader :=
  match frames with
  | [] => stopInValue [] spot
  | frame :: rest => stopAround rest (frame.stoppingAt spot)

/-- A value is complete. -/
def put (frames : List Frame) (value : Draft) : Reader :=
  match frames with
  | [] => ⟨[], .ended value⟩
  | .items done :: rest => ⟨.items (value :: done) :: rest, .separator⟩
  | .member done key :: rest => ⟨.members ((key, value) :: done) :: rest, .separator⟩
  | .members done :: rest => ⟨.members done :: rest, .separator⟩

/-- A name of a member is complete. -/
def putKey (frames : List Frame) (key : Key) : Reader :=
  ⟨frames, .colon key⟩

/-- Close the innermost array. -/
def closeArray (frames : List Frame) : Reader :=
  match frames with
  | .items done :: rest => put rest (.array done.reverse none)
  | _ => stopInValue frames (.both .valueExpected)

/-- Close the innermost object. -/
def closeObject (frames : List Frame) : Reader :=
  match frames with
  | .members done :: rest => put rest (.object done.reverse none)
  | _ => stopInValue frames (.both .valueExpected)

/-- The first character of a value. -/
def beginValue (frames : List Frame) (c : Char) : Reader :=
  if c = 'n' then ⟨frames, .inWord ['u', 'l', 'l'] .null⟩
  else if c = 't' then ⟨frames, .inWord ['r', 'u', 'e'] (.bool true)⟩
  else if c = 'f' then ⟨frames, .inWord ['a', 'l', 's', 'e'] (.bool false)⟩
  else if c = '"' then ⟨frames, .inString .start⟩
  else if c = '[' then ⟨.items [] :: frames, .firstItem⟩
  else if c = '\x7b' then ⟨.members [] :: frames, .firstKey⟩
  else
    match Numeral.start? c with
    | some numeral => ⟨frames, .inNumber numeral⟩
    | none => stopInValue frames ((Break.both .valueExpected).atSite .start)

/-- White space between tokens. -/
def isSpace (c : Char) : Bool :=
  c = ' ' || c = '\n' || c = '\t' || c = '\r'

/-- The value that the innermost member waits for is due. -/
def awaitValue (frames : List Frame) (key : Key) : Reader :=
  match frames with
  | .members done :: rest => ⟨.member done key :: rest, .value⟩
  | _ => ⟨frames, .value⟩

/-- The member whose colon is missing. -/
def stopAfterKey
    (frames : List Frame)
    (key : Key)
    (spot : Break) :
    Reader :=
  match frames with
  | .members done :: rest => stopAround rest ((Frame.member done key).endingIn (.broken spot))
  | _ => stopInValue frames spot

/-- The first character of a token, where spaces are already skipped. -/
def token (reader : Reader) (c : Char) : Reader :=
  let frames := reader.frames
  match reader.mode with
  | .value => beginValue frames c
  | .firstItem => if c = ']' then closeArray frames else beginValue frames c
  | .nextItem =>
      if c = ']' then
        stopBetween frames { read := .trailingComma, passed := .valueExpected }
      else
        beginValue frames c
  | .firstKey =>
      if c = '\x7d' then closeObject frames
      else if c = '"' then ⟨frames, .inKey .start⟩
      else stopBetween frames (.both .keyExpected)
  | .nextKey =>
      if c = '"' then ⟨frames, .inKey .start⟩
      else if c = '\x7d' then stopBetween frames { read := .trailingComma, passed := .keyExpected }
      else stopBetween frames (.both .keyExpected)
  | .colon key =>
      if c = ':' then awaitValue frames key
      else stopAfterKey frames key ((Break.both .colonExpected).atSite .colon)
  | .separator =>
      match frames with
      | .items _ :: _ =>
          if c = ',' then ⟨frames, .nextItem⟩
          else if c = ']' then closeArray frames
          else stopBetween frames (.both .commaOrBracketExpected)
      | _ =>
          if c = ',' then ⟨frames, .nextKey⟩
          else if c = '\x7d' then closeObject frames
          else stopBetween frames (.both .commaOrBraceExpected)
  | .ended root => ⟨frames, .overrun root⟩
  | _ => reader

/-- A glyph between tokens. -/
def between (reader : Reader) : Text.Glyph → Reader
  | .char c => if isSpace c then reader else reader.token c
  | .stray _ => reader.token '\xff'

/-- The next glyph of a text. -/
def step (reader : Reader) (glyph : Text.Glyph) : Reader :=
  match reader.mode with
  | .inString spelling =>
      match spelling.step glyph with
      | .more more => ⟨reader.frames, .inString more⟩
      | .ended whole => put reader.frames whole.draft
      | .broken spot => stopInValue reader.frames spot
  | .inKey spelling =>
      match spelling.step glyph with
      | .more more => ⟨reader.frames, .inKey more⟩
      | .ended whole => putKey reader.frames whole.key
      | .broken spot => stopBetween reader.frames spot
  | .inWord due value =>
      match due with
      | [] => put reader.frames value
      | [last] =>
          if glyph = .char last then put reader.frames value
          else stopInValue reader.frames (.both .wordExpected)
      | next :: rest =>
          if glyph = .char next then ⟨reader.frames, .inWord rest value⟩
          else stopInValue reader.frames (.both .wordExpected)
  | .inNumber numeral =>
      match glyph with
      | .char c =>
          match numeral.step c with
          | .more more => ⟨reader.frames, .inNumber more⟩
          | .ended => (put reader.frames numeral.draft).between glyph
          | .invalid => stopInValue reader.frames (.both .invalidNumber)
      | .stray _ =>
          if numeral.complete then
            (put reader.frames numeral.draft).between glyph
          else
            stopInValue reader.frames (.both .invalidNumber)
  | .overrun _ => reader
  | .stopped _ => reader
  | _ => reader.between glyph

/-- The text ends: a numeral that may end here is complete. -/
def settle (reader : Reader) : Reader :=
  match reader.mode with
  | .inNumber numeral =>
      if numeral.complete then
        put reader.frames numeral.draft
      else
        stopInValue reader.frames { read := .endInValue, passed := .invalidNumber }
  | _ => reader

/-- The text ends: what is missing is a flaw. -/
def stopAtEnd (reader : Reader) : Reader :=
  let frames := reader.frames
  match reader.mode with
  | .value => stopInValue frames ((Break.both .endInValue).atSite .start)
  | .nextItem => stopBetween frames (.both .endInValue)
  | .firstItem => stopBetween frames (.both .endInArray)
  | .firstKey => stopBetween frames (.both .endInObject)
  | .nextKey => stopBetween frames { read := .endInValue, passed := .endInObject }
  | .colon key => stopAfterKey frames key ((Break.both .endInObject).atSite .colon)
  | .separator =>
      match frames with
      | .items _ :: _ => stopBetween frames (.both .endInArray)
      | _ => stopBetween frames (.both .endInObject)
  | .inKey spelling =>
      stopBetween frames { read := spelling.flaw.getD .endInString, passed := .endInString }
  | .inString spelling =>
      stopInValue frames { read := spelling.flaw.getD .endInString, passed := .endInString }
  | .inWord _ _ => stopInValue frames (.both .endInValue)
  | _ => reader

/-- What was read when the text has ended. -/
def sheet (reader : Reader) : Sheet :=
  match reader.settle.stopAtEnd.mode with
  | .ended root => ⟨root, false⟩
  | .overrun root => ⟨root, true⟩
  | .stopped root => ⟨root, false⟩
  | _ => ⟨.broken ((Break.both .endInValue).atSite .start), false⟩

end Reader

/-- Read a text given as glyphs. -/
def readGlyphs (glyphs : List Text.Glyph) : Sheet :=
  (glyphs.foldl Reader.step Reader.start).sheet

/-- Read a text. -/
def readText (text : String) : Sheet :=
  readGlyphs (Text.glyphsOf text)

/-- Read a text given as bytes. -/
def readBytes (bytes : Text.Bytes) : Sheet :=
  readGlyphs (Text.Utf8.glyphs bytes)

end AgentWire.Json

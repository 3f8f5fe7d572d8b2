namespace AgentWire.Text

/-!
# Text that arrives as bytes

Bodies, files and data items are byte lists.  `decode?` accepts exactly the
encodings of texts.  `glyphs` never fails: a byte that belongs to no character
stays visible as a stray, so that a reader can say where it stands.
-/

/-- Raw bytes in the order they arrived. -/
abbrev Bytes := List UInt8

/-- One unit of a byte text: a character, or a byte that belongs to none. -/
inductive Glyph where
  | char (value : Char)
  | stray (byte : UInt8)
  deriving Repr, DecidableEq

namespace Utf8

/-- The bytes of a text. -/
def encode (text : String) : Bytes :=
  text.toUTF8.toList

/-- The text whose bytes these are, if there is one. -/
def decode? (bytes : Bytes) : Option String :=
  String.fromUTF8? bytes.toByteArray

/-- The first glyph of a nonempty byte list, with the number of bytes it takes. -/
def firstGlyph
    (byte : UInt8)
    (rest : Bytes) :
    Glyph × Nat :=
  match (byte :: rest.take 3).toByteArray.utf8DecodeChar? 0 with
  | some value => (.char value, value.utf8Size)
  | none => (.stray byte, 1)

/-- The glyphs of a byte list, in order. -/
def glyphs : Bytes → List Glyph
  | [] => []
  | byte :: rest =>
      let (glyph, size) := firstGlyph byte rest
      glyph :: glyphs (rest.drop (size - 1))
  termination_by bytes => bytes.length
  decreasing_by
    simp only [List.length_drop, List.length_cons]
    omega

/-- The ranges of the bytes that must follow a first byte, if it can be one. -/
def followers? (first : UInt8) : Option (List (Nat × Nat)) :=
  let code := first.toNat
  if code < 0x80 then some []
  else if 0xC2 ≤ code ∧ code ≤ 0xDF then some [(0x80, 0xBF)]
  else if code = 0xE0 then some [(0xA0, 0xBF), (0x80, 0xBF)]
  else if code = 0xED then some [(0x80, 0x9F), (0x80, 0xBF)]
  else if 0xE1 ≤ code ∧ code ≤ 0xEF then some [(0x80, 0xBF), (0x80, 0xBF)]
  else if code = 0xF0 then some [(0x90, 0xBF), (0x80, 0xBF), (0x80, 0xBF)]
  else if 0xF1 ≤ code ∧ code ≤ 0xF3 then some [(0x80, 0xBF), (0x80, 0xBF), (0x80, 0xBF)]
  else if code = 0xF4 then some [(0x80, 0x8F), (0x80, 0xBF), (0x80, 0xBF)]
  else none

/-- Where bytes stop being a text, and how many bytes are wrong there unless they end early. -/
structure Fault where
  index : Nat
  length : Option Nat
  deriving Repr, DecidableEq

namespace Fault

/-- The wording of a fault. -/
def message (fault : Fault) : String :=
  match fault.length with
  | some length =>
      "invalid utf-8 sequence of " ++ toString length ++ " bytes from index "
        ++ toString fault.index
  | none => "incomplete utf-8 byte sequence from index " ++ toString fault.index

end Fault

/-- The first fault in bytes that continue a character and stand behind others. -/
def faultFrom
    (start index : Nat) :
    List (Nat × Nat) → Bytes → Option Fault
  | [], [] => none
  | _ :: _, [] => some ⟨start, none⟩
  | (low, high) :: due, byte :: rest =>
      if low ≤ byte.toNat ∧ byte.toNat ≤ high then
        faultFrom start (index + 1) due rest
      else
        some ⟨start, some (index - start)⟩
  | [], byte :: rest =>
      match followers? byte with
      | some due => faultFrom index (index + 1) due rest
      | none => some ⟨index, some 1⟩

/-- The first fault in some bytes. -/
def fault? (bytes : Bytes) : Option Fault :=
  faultFrom 0 0 [] bytes

end Utf8

/-- The glyphs of a text: its characters. -/
def glyphsOf (text : String) : List Glyph :=
  text.toList.map .char

/-- The lower-case hexadecimal digit of a number below sixteen. -/
def hexDigit (value : Nat) : Char :=
  if value < 10 then
    Char.ofNat (48 + value)
  else
    Char.ofNat (87 + value)

/-- The value of a hexadecimal digit of either case. -/
def hexValue? (digit : Char) : Option Nat :=
  if '0' ≤ digit ∧ digit ≤ '9' then
    some (digit.toNat - 48)
  else if 'a' ≤ digit ∧ digit ≤ 'f' then
    some (digit.toNat - 87)
  else if 'A' ≤ digit ∧ digit ≤ 'F' then
    some (digit.toNat - 55)
  else
    none

/-- A byte list as pairs of lower-case hexadecimal digits. -/
def toHex (bytes : Bytes) : String :=
  String.ofList <| bytes.flatMap fun byte =>
    [hexDigit (byte.toNat / 16), hexDigit (byte.toNat % 16)]

/-- The bytes written as pairs of hexadecimal digits. -/
def ofHex? : List Char → Option Bytes
  | [] => some []
  | high :: low :: rest => do
      let upper ← hexValue? high
      let lower ← hexValue? low
      let bytes ← ofHex? rest
      some (UInt8.ofNat (16 * upper + lower) :: bytes)
  | [_] => none

end AgentWire.Text

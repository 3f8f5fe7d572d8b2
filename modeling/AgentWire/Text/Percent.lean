import AgentWire.Text.Utf8

namespace AgentWire.Text

/-!
# Percent encoding

Letters, digits and four marks stand for themselves; every other byte of a text
becomes a percent sign and two upper-case hexadecimal digits.
-/

/-- A byte that stands for itself. -/
def isUnreserved (byte : UInt8) : Bool :=
  let code := byte.toNat
  (48 ≤ code && code ≤ 57) || (65 ≤ code && code ≤ 90) || (97 ≤ code && code ≤ 122)
    || code = 45 || code = 46 || code = 95 || code = 126

/-- The upper-case hexadecimal digit of a number below sixteen. -/
def upperHexDigit (value : Nat) : Char :=
  if value < 10 then
    Char.ofNat (48 + value)
  else
    Char.ofNat (55 + value)

/-- A byte in percent encoding. -/
def percentByte (byte : UInt8) : List Char :=
  if isUnreserved byte then
    [Char.ofNat byte.toNat]
  else
    ['%', upperHexDigit (byte.toNat / 16), upperHexDigit (byte.toNat % 16)]

/-- A text in percent encoding. -/
def percentEncode (text : String) : String :=
  String.ofList ((Utf8.encode text).flatMap percentByte)

/-- The bytes of a percent encoding; a percent sign without two digits stands for itself. -/
def percentDecode : List Char → Bytes
  | '%' :: high :: low :: rest =>
      match hexValue? high, hexValue? low with
      | some upper, some lower => UInt8.ofNat (16 * upper + lower) :: percentDecode rest
      | _, _ => 37 :: percentDecode (high :: low :: rest)
  | c :: rest => Utf8.encode (String.singleton c) ++ percentDecode rest
  | [] => []

end AgentWire.Text

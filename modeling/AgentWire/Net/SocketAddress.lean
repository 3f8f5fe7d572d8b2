import AgentWire.Text.Utf8

namespace AgentWire.Net

/-!
# Socket addresses

An address of the fourth version is four numbers and a port, as in
`127.0.0.1:80`.  One of the sixth version is eight groups in brackets and a port, as
in `[::1]:80`; two colons stand for groups of zeros, the last two groups may be
written as an address of the fourth version, and a zone may follow a percent sign.

Every reader takes what it reads off the front of a text.
-/

/-- The digits at the front of a text, in a base up to sixteen. -/
def takeDigits (base : Nat) : List Char → List Nat × List Char
  | [] => ([], [])
  | c :: rest =>
      match Text.hexValue? c with
      | none => ([], c :: rest)
      | some digit =>
          if digit < base then
            let (digits, rest) := takeDigits base rest
            (digit :: digits, rest)
          else
            ([], c :: rest)

/-- The value of some digits. -/
def valueOf (base : Nat) (digits : List Nat) : Nat :=
  digits.foldl (fun value digit => value * base + digit) 0

/-- A number below a bound, of at most so many digits if they are limited. -/
def readNumber
    (base bound : Nat)
    (limit : Option Nat)
    (text : List Char) :
    Option (Nat × List Char) :=
  let (digits, rest) := takeDigits base text
  let value := valueOf base digits
  if digits.isEmpty || (limit.any (· < digits.length)) || bound ≤ value then
    none
  else
    some (value, rest)

/-- A number of an address of the fourth version; it has no leading zeros. -/
def readOctet (text : List Char) : Option (Nat × List Char) :=
  match text with
  | '0' :: c :: _ => if c.isDigit then none else readNumber 10 256 (some 3) text
  | _ => readNumber 10 256 (some 3) text

/-- One character. -/
def readMark (mark : Char) : List Char → Option (List Char)
  | [] => none
  | c :: rest => if c = mark then some rest else none

/-- An address of the fourth version. -/
structure Address4 where
  first : Nat
  second : Nat
  third : Nat
  fourth : Nat
  deriving Repr, DecidableEq

/-- Read an address of the fourth version. -/
def readAddress4 (text : List Char) : Option (Address4 × List Char) := do
  let (first, rest) ← readOctet text
  let (second, rest) ← readOctet (← readMark '.' rest)
  let (third, rest) ← readOctet (← readMark '.' rest)
  let (fourth, rest) ← readOctet (← readMark '.' rest)
  some (⟨first, second, third, fourth⟩, rest)

/-- The mark between groups; nothing stands before the first one. -/
def readBetween (first : Bool) (text : List Char) : Option (List Char) :=
  if first then some text else readMark ':' text

/-- The groups of an address of the sixth version that an embedded address stands for. -/
def groupsOf (address : Address4) : List Nat :=
  [address.first * 256 + address.second, address.third * 256 + address.fourth]

/--
Read at most a number of groups.  The result says whether an embedded address ends
them.
-/
def readGroups (first : Bool) : Nat → List Char → List Nat × Bool × List Char
  | 0, text => ([], false, text)
  | room + 1, text =>
      match
        if room = 0 then none else (readBetween first text).bind readAddress4
      with
      | some (address, rest) => (groupsOf address, true, rest)
      | none =>
          match (readBetween first text).bind (readNumber 16 65536 (some 4)) with
          | none => ([], false, text)
          | some (group, rest) =>
              let (groups, embedded, rest) := readGroups false room rest
              (group :: groups, embedded, rest)

/-- Read the eight groups of an address of the sixth version. -/
def readAddress6 (text : List Char) : Option (List Nat × List Char) :=
  let (head, embedded, rest) := readGroups true 8 text
  if head.length = 8 then
    some (head, rest)
  else if embedded then
    none
  else do
    let rest ← readMark ':' (← readMark ':' rest)
    let (tail, _, rest) := readGroups true (7 - head.length) rest
    some (head ++ List.replicate (8 - head.length - tail.length) 0 ++ tail, rest)

/-- Read the zone of an address of the sixth version; without one it is zero. -/
def readZone (text : List Char) : Nat × List Char :=
  (do readNumber 10 UInt32.size none (← readMark '%' text)).getD (0, text)

/-- Read a port behind a colon. -/
def readPort (text : List Char) : Option (Nat × List Char) := do
  readNumber 10 65536 none (← readMark ':' text)

/-- Where a server can be reached. -/
inductive SocketAddress where
  | v4 (address : Address4) (port : Nat)
  | v6 (groups : List Nat) (zone port : Nat)
  deriving Repr, DecidableEq

namespace SocketAddress

/-- Read a socket address of the fourth version. -/
def read4 (text : List Char) : Option (SocketAddress × List Char) := do
  let (address, rest) ← readAddress4 text
  let (port, rest) ← readPort rest
  some (.v4 address port, rest)

/-- Read a socket address of the sixth version. -/
def read6 (text : List Char) : Option (SocketAddress × List Char) := do
  let (groups, rest) ← readAddress6 (← readMark '[' text)
  let (zone, rest) := readZone rest
  let (port, rest) ← readPort (← readMark ']' rest)
  some (.v6 groups zone port, rest)

/-- The socket address that is written in a text. -/
def ofText? (text : String) : Option SocketAddress :=
  match (read4 text.toList).or (read6 text.toList) with
  | some (address, []) => some address
  | _ => none

/-- The port of an address. -/
def port : SocketAddress → Nat
  | .v4 _ port => port
  | .v6 _ _ port => port

/-- Whether an address is of the sixth version. -/
def isV6 : SocketAddress → Bool
  | .v4 .. => false
  | .v6 .. => true

/-- An address of the fourth version as a text. -/
def showAddress4 (address : Address4) : String :=
  String.intercalate "."
    ([address.first, address.second, address.third, address.fourth].map toString)

/-- Groups as a text, with colons between. -/
def showGroups (groups : List Nat) : String :=
  String.intercalate ":" (groups.map fun group => String.ofList (Nat.toDigits 16 group))

/-- How many zeros some groups start with. -/
def leadingZeros (groups : List Nat) : Nat :=
  (groups.takeWhile (· == 0)).length

/-- Where the first one of the longest runs of zeros begins, and its length. -/
def longestZeros (place : Nat) : List Nat → Nat × Nat
  | [] => (place, 0)
  | group :: rest =>
      let here := leadingZeros (group :: rest)
      let (start, length) := longestZeros (place + 1) rest
      if length ≤ here then (place, here) else (start, length)

/-- Eight groups as a text; an embedded address and the longest run of zeros are shortened. -/
def showAddress6 (groups : List Nat) : String :=
  match groups with
  | [0, 0, 0, 0, 0, 65535, high, low] =>
      "::ffff:" ++ showAddress4 ⟨high / 256, high % 256, low / 256, low % 256⟩
  | _ =>
      let (start, length) := longestZeros 0 groups
      if 1 < length then
        showGroups (groups.take start) ++ "::" ++ showGroups (groups.drop (start + length))
      else
        showGroups groups

/-- An address as a text. -/
def text : SocketAddress → String
  | .v4 address port => showAddress4 address ++ ":" ++ toString port
  | .v6 groups zone port =>
      "[" ++ showAddress6 groups ++ (if zone = 0 then "" else "%" ++ toString zone)
        ++ "]:" ++ toString port

end SocketAddress

end AgentWire.Net

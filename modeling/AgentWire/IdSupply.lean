import AgentWire.Text.Utf8

namespace AgentWire

/-!
# Fresh identifiers

Identifiers have the form of random UUIDs.  A supply hands out a new one each
time; what is random about them is chosen once, when the supply is made.
-/

/-- A supply of identifiers. -/
structure IdSupply where
  seed : Nat := 0
  used : Nat := 0
  deriving Repr, DecidableEq

namespace IdSupply

/-- The last hexadecimal digits of a number. -/
def hexPlaces (value : Nat) : Nat → List Char
  | 0 => []
  | places + 1 => hexPlaces (value / 16) places ++ [Text.hexDigit (value % 16)]

/-- The identifier with a number in a supply. -/
def idAt (seed index : Nat) : String :=
  String.ofList <|
    hexPlaces (seed / Nat.pow 16 7) 8 ++ '-' :: hexPlaces (seed / Nat.pow 16 3) 4
      ++ '-' :: '4' :: hexPlaces seed 3
      ++ '-' :: '8' :: hexPlaces (index / Nat.pow 16 12) 3
      ++ '-' :: hexPlaces index 12

/-- Whether a character is a small hexadecimal digit. -/
def isPlace (c : Char) : Bool :=
  c.isDigit || ('a' ≤ c && c ≤ 'f')

/-- Whether a text is one group of digits for each size, with dashes between the groups. -/
def hasGroups : List Nat → List Char → Bool
  | [], text => text.isEmpty
  | [size], text => text.length == size && text.all isPlace
  | size :: sizes, text =>
      (text.take size).length == size && (text.take size).all isPlace
        && (text.drop size).head? == some '-' && hasGroups sizes (text.drop (size + 1))

/-- The identifier that a text starts with, and what follows it. -/
def leading? (text : List Char) : Option (List Char × List Char) :=
  if hasGroups [8, 4, 4, 4, 12] (text.take 36) then
    some (text.splitAt 36)
  else
    none

/-- A new identifier, and the supply after it. -/
def fresh (supply : IdSupply) : String × IdSupply :=
  (idAt supply.seed supply.used, { supply with used := supply.used + 1 })

/-- Another supply of other identifiers; different numbers give different supplies. -/
def branch (supply : IdSupply) (number : Nat) : IdSupply where
  seed := supply.seed + number + 1

/-- This identifier if it is not empty, else a new one. -/
def orFresh (supply : IdSupply) (given : Option String) : String × IdSupply :=
  match given with
  | some id => if id.isEmpty then supply.fresh else (id, supply)
  | none => supply.fresh

end IdSupply

/-- A text that is not empty. -/
def nonempty? (text : String) : Option String :=
  if text.isEmpty then none else some text

end AgentWire

import AgentWire.Decimal.Word
import AgentWire.Text.Split

namespace AgentWire.Http

/-!
# Addresses of servers

An address names a host, perhaps a port, and what is asked for there.
-/

/-- Where a request goes. -/
structure Address where
  host : String
  port : Nat := 80
  /-- The path and the query. -/
  target : String := "/"
  deriving Repr, DecidableEq

namespace Address

/-- What an address starts with. -/
def scheme : List Char := "http://".toList

/-- Whether a character ends the name of a host and its port. -/
def endsHost (c : Char) : Bool :=
  c = '/' || c = '?' || c = '#'

/-- A host, which may be a number in brackets, and the port behind it. -/
def hostAndPort (text : List Char) : List Char × Option (List Char) :=
  match text with
  | '[' :: rest =>
      match Text.cut ']' rest with
      | (host, some (':' :: port)) => (host, some port)
      | (host, _) => (host, none)
  | _ => Text.cut ':' text

/-- The path and the query of what stands behind a host. -/
def targetOf (text : List Char) : String :=
  match (Text.cut '#' text).1 with
  | '/' :: rest => String.ofList ('/' :: rest)
  | rest => String.ofList ('/' :: rest)

/-- The address that is written in a text. -/
def ofText? (text : String) : Option Address :=
  if scheme.isPrefixOf text.toList then
    let rest := text.toList.drop scheme.length
    let target := targetOf (rest.dropWhile (!endsHost ·))
    match hostAndPort (rest.takeWhile (!endsHost ·)) with
    | ([], _) => none
    | (host, none) => some { host := String.ofList host, target }
    | (host, some port) =>
        match Decimal.readWord UInt16.size (String.ofList port) with
        | .ok port => some { host := String.ofList host, port, target }
        | .error _ => none
  else
    none

end Address

end AgentWire.Http

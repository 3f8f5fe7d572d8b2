import AgentWire.Decimal.Word
import AgentWire.Http.Address
import AgentWire.Http.Query
import AgentWire.Http.Message
import AgentWire.Text.Lines

namespace AgentWire.Http

/-!
# Messages on a connection

A connection carries one request and one response.  The server ends it behind the
response, so a body needs no marks of its own.
-/

/-- The lines of a request before its body. -/
def Request.lines (request : Request) (address : Address) : List String :=
  [request.method ++ " " ++ address.target ++ " HTTP/1.0",
   "host: " ++ address.host ++ ":" ++ toString address.port]
    ++ request.headers.map (fun (name, value) => name ++ ": " ++ value)
    ++ (if request.body.isEmpty then []
        else ["content-length: " ++ toString request.body.length])
    ++ [""]

/-- A request as it is sent to an address. -/
def Request.bytes (request : Request) (address : Address) : Text.Bytes :=
  (request.lines address).flatMap
      (fun line => Text.Utf8.encode line ++ [Text.carriageByte, Text.newlineByte])
    ++ request.body

/-- What stands before the empty line of a response and what stands behind it. -/
def splitHead? : Text.Bytes → Option (Text.Bytes × Text.Bytes)
  | 13 :: 10 :: 13 :: 10 :: body => some ([], body)
  | byte :: rest => (splitHead? rest).map fun (head, body) => (byte :: head, body)
  | [] => none

/-- The status that the head of a response gives. -/
def statusOf? (head : Text.Bytes) : Option Nat :=
  match Text.split ' ' (readLossy (head.takeWhile (· != Text.carriageByte))) with
  | _ :: status :: _ => (Decimal.readWord 1000 status).toOption
  | _ => none

end AgentWire.Http

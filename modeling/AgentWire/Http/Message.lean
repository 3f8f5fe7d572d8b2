import AgentWire.Http.Address
import AgentWire.Json.Equality
import AgentWire.Json.Writer
import AgentWire.Text.Utf8

namespace AgentWire.Http

/-!
# Requests and responses

A request names a target, which is a path and perhaps a query; a scheme and a
host may stand before them.  The names of headers are compared without regard to
case.
-/

/-- A request. -/
structure Request where
  method : String := "GET"
  target : String := "/"
  headers : List (String × String) := []
  body : Text.Bytes := []
  deriving Repr, DecidableEq

namespace Request

/-- A character of the name of a scheme. -/
def isSchemeChar (c : Char) : Bool :=
  c.isAlphanum || c = '+' || c = '-' || c = '.'

/-- What a request asks for at its server; a target that is a host alone asks for nothing. -/
def localTarget (request : Request) : List Char :=
  match request.target.toList with
  | ['*'] => ['*']
  | '/' :: rest => (Text.cut '#' ('/' :: rest)).1
  | target =>
      match target.dropWhile isSchemeChar with
      | ':' :: '/' :: '/' :: rest =>
          (Address.targetOf (rest.dropWhile (!Address.endsHost ·))).toList
      | _ => []

/-- The path of a request, as it was sent. -/
def path (request : Request) : String :=
  String.ofList (Text.cut '?' request.localTarget).1

/-- The query of a request, as it was sent; it is empty if there is none. -/
def query (request : Request) : String :=
  String.ofList ((Text.cut '?' request.localTarget).2.getD [])

/-- The first value of a header. -/
def header? (request : Request) (name : String) : Option String :=
  (request.headers.find? (Text.lowerAscii ·.1 == name)).map (·.2)

end Request

/-- What a response carries. -/
inductive Body where
  | empty
  | text (words : String)
  | document (value : Json)
  deriving Repr, DecidableEq

/-- A response. -/
structure Response where
  status : Nat
  headers : List (String × String) := []
  body : Body := .empty
  deriving Repr, DecidableEq

namespace Response

/-- A response with a plain text. -/
def text (status : Nat) (words : String) : Response :=
  ⟨status, [("content-type", "text/plain; charset=utf-8")], .text words⟩

/-- A response with a document. -/
def document (status : Nat) (value : Json) : Response :=
  ⟨status, [("content-type", "application/json")], .document value⟩

/-- A response with a stream of events. -/
def events (words : String) : Response :=
  ⟨200, [("content-type", "text/event-stream"), ("cache-control", "no-cache")], .text words⟩

/-- The response with one more header. -/
def withHeader (response : Response) (name value : String) : Response :=
  { response with headers := response.headers ++ [(name, value)] }

/-- The response without what it carries. -/
def withoutBody (response : Response) : Response :=
  { response with body := .empty }

end Response

end AgentWire.Http

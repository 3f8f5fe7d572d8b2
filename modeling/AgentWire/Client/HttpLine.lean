import AgentWire.Client.Config
import AgentWire.Client.Transport
import AgentWire.Clock
import AgentWire.Http.Message
import AgentWire.Http.Origin
import AgentWire.Http.Query
import AgentWire.Json.Decoder
import AgentWire.Sse.Reader

namespace AgentWire.Client

/-!
# Talking to a server

A line turns what a client asks for into a request to the server, and the reply
into the pieces of a body or an error.  What happens in between is not its work.
-/

/-- The way to an endpoint. -/
structure HttpLine where
  endpoint : String
  /-- The headers that are sent with every request. -/
  headers : List (String × String) := []
  deriving Repr, DecidableEq

/-- A reply of a server: its status and its body in the pieces in which it arrives. -/
structure Reply where
  status : Nat
  pieces : List (Timed Sse.Piece)
  deriving Repr

namespace HttpLine

/-- The line of a client with these settings. -/
def ofConfig (config : Config) : HttpLine where
  endpoint := endpointOf config.endpoint
  headers := config.headers

/-- The query that resumes a run behind the event with a number. -/
def resumeQuery (startingAfter : UInt64) : String :=
  "stream=true&startingAfter=" ++ toString startingAfter.toNat

/-- An address with a query behind what it has already. -/
def withQuery (address query : String) : String :=
  address ++ (if address.toList.contains '?' then "&" else "?") ++ query

/-- The request to the server; its target is a whole address. -/
def ask (line : HttpLine) : Request → Http.Request
  | .create input =>
      { method := "POST"
        target := line.endpoint
        headers :=
          ("content-type", "application/json") :: ("accept", "text/event-stream")
            :: line.headers
        body := Text.Utf8.encode input.text }
  | .resume responseId startingAfter =>
      { target :=
          withQuery (resumeAddress line.endpoint responseId) (resumeQuery startingAfter)
        headers := ("accept", "text/event-stream") :: line.headers }

/-- Whether an address begins with the name of a scheme. -/
def hasScheme (address : String) : Bool :=
  match Text.cut ':' address.toList with
  | (name, some _) => !name.isEmpty && name.all fun c => c.isAlphanum || "+-.".toList.contains c
  | (_, none) => false

/-- Whether an address can be reached at all. -/
def isWebAddress (address : String) : Bool :=
  "http://".toList.isPrefixOf address.toList || "https://".toList.isPrefixOf address.toList

/-- Why a request cannot be made, if it cannot. -/
def unsendable? (request : Http.Request) : Option String :=
  if !hasScheme request.target || request.headers.any (!Http.isHeaderValue ·.2) then
    some "builder error"
  else if !isWebAddress request.target then
    some ("builder error for url (" ++ request.target ++ ")")
  else
    none

/-- The message about a request that reached no server. -/
def unsent (request : Http.Request) : String :=
  (unsendable? request).getD ("error sending request for url (" ++ request.target ++ ")")

/-- What a document tells about an error. -/
def errorDetails? (document : Json) : Option String :=
  ["details", "error", "message"].findSome? fun name =>
    (document.get? name).bind Json.asString?

/-- What the body of a refusal tells. -/
def errorBody (body : String) : String :=
  ((Json.Decoder.json.text body).toOption.bind errorDetails?).getD body

/-- The bytes of a body up to the first failure. -/
def bodyBytes : List (Timed Sse.Piece) → Text.Bytes
  | [] => []
  | .pause _ :: rest => bodyBytes rest
  | .arrival (.ok bytes) :: rest => bytes ++ bodyBytes rest
  | .arrival (.error _) :: _ => []

/-- The pieces of the body of a reply, or the error that it stands for. -/
def receive (reply : Reply) : Except ClientError (List (Timed Sse.Piece)) :=
  if 200 ≤ reply.status ∧ reply.status < 300 then
    .ok reply.pieces
  else
    .error (.ofStatus reply.status (errorBody (Http.readLossy (bodyBytes reply.pieces))))

/-- The error of a request that reached no server. -/
def failed (request : Http.Request) : ClientError :=
  .connection (unsent request)

/-- Why a connection is not opened: the call is cancelled, or no server is reached. -/
def refusal (line : HttpLine) (cancelled : Bool) (request : Request) : ClientError :=
  if cancelled then .cancelled else failed (line.ask request)

end HttpLine

end AgentWire.Client

import AgentWire.Http.MediaType
import AgentWire.Http.Message
import AgentWire.Http.Query
import AgentWire.RunInput

namespace AgentWire.Server

/-!
# What a server takes in

Before a request is acted on, its body or its query is read.  A request that fails
here is answered with a plain text.
-/

open Http (MediaType QueryFault)

/-- Why the body of a request is not accepted. -/
inductive BodyFault where
  | wrongType
  | tooLong
  | unreadable (refusal : Json.Refusal)
  deriving Repr, DecidableEq

namespace BodyFault

/-- The response to a body that is not accepted. -/
def response : BodyFault → Http.Response
  | .wrongType => .text 415 "Expected request with `Content-Type: application/json`"
  | .tooLong => .text 413 "Failed to buffer the request body: length limit exceeded"
  | .unreadable refusal =>
      match refusal.fault with
      | .flaw _ =>
          .text 400 ("Failed to parse the request body as JSON: " ++ refusal.placedMessage)
      | .mismatch _ =>
          .text 422
            ("Failed to deserialize the JSON body into the target type: "
              ++ refusal.placedMessage)

end BodyFault

/-- Whether a request says that it carries a document. -/
def carriesDocument (request : Http.Request) : Bool :=
  ((request.header? "content-type").bind MediaType.ofText?).any MediaType.isJson

/-- Read the run request that a request carries, if it is not too long. -/
def readBody (limit : Nat) (request : Http.Request) : Except BodyFault RunInput :=
  if !carriesDocument request then
    .error .wrongType
  else if limit < request.body.length then
    .error .tooLong
  else
    (RunInput.decode.bytes request.body).mapError .unreadable

/-- How a run is to be resumed. -/
structure ResumeQuery where
  stream : Option Bool := none
  startingAfter : Option Nat := none
  deriving Repr, DecidableEq

namespace ResumeQuery

/-- Read a truth value. -/
def readBool (name text : String) : Except QueryFault Bool :=
  if text = "true" then
    .ok true
  else if text = "false" then
    .ok false
  else
    .error (.notTruthValue name)

/-- Take one name with its value; names that mean nothing are passed over. -/
def take (query : ResumeQuery) (pair : String × String) : Except QueryFault ResumeQuery :=
  let (name, value) := pair
  if name = "stream" then
    if query.stream.isSome then
      .error (.repeated name)
    else do
      let stream ← readBool name value
      .ok { query with stream := some stream }
  else if name = "startingAfter" then
    if query.startingAfter.isSome then
      .error (.repeated name)
    else
      match Decimal.readWord64 value with
      | .error fault => .error (.notWord name fault)
      | .ok number => .ok { query with startingAfter := some number }
  else
    .ok query

/-- Read the query of a request. -/
def read (query : String) : Except QueryFault ResumeQuery :=
  (Http.queryPairs query).foldlM take {}

/-- The response to a query that cannot be used. -/
def refuse (fault : QueryFault) : Http.Response :=
  .text 400 ("Failed to deserialize query string: " ++ fault.message)

end ResumeQuery

end AgentWire.Server

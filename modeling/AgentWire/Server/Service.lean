import AgentWire.Http.Origin
import AgentWire.Server.Agent
import AgentWire.Server.Archive
import AgentWire.Server.Config
import AgentWire.Server.Intake
import AgentWire.Sse.Writer

namespace AgentWire.Server

/-!
# The service of an agent

A service starts runs, records them, and lets clients follow them from any event
on.  It also tells that it is alive and what its agent is like.
-/

open Http (OriginPolicy Request Response)

/-- What a path stands for. -/
inductive Route where
  | health
  | info
  | stream
  /-- A run, with its id as it was sent. -/
  | run (segment : String)
  deriving Repr, DecidableEq

namespace Route

/-- The route of a path. -/
def ofPath? (path : String) : Option Route :=
  match Text.split '/' path with
  | ["", "health"] => some .health
  | ["", "info"] => some .info
  | ["", "stream"] => some .stream
  | ["", "stream", segment] => if segment.isEmpty then none else some (.run segment)
  | _ => none

/-- The methods that a route knows. -/
def methods : Route → List String
  | .stream => ["POST"]
  | _ => ["GET", "HEAD"]

/-- The methods that a route knows, as a header tells them. -/
def allow (route : Route) : String :=
  String.intercalate "," route.methods

end Route

/-- What a request comes to: a response, or a log to follow behind an event. -/
inductive Outcome where
  | respond (response : Response)
  | follow (log : LogNumber) (number : Nat)
  deriving Repr

/-- A server for an agent. -/
structure Service where
  agent : Agent
  config : ServerConfig := {}
  archive : Archive := {}
  supply : IdSupply := {}

namespace Service

/-- The version that a service tells. -/
def version : String := "0.1.0"

/-- The response to an error. -/
def errorResponse (time : String) (error : ServerError) : Response :=
  .document error.status <|
    .ofMembers
      [("error", .string error.name), ("details", .string error.message),
       ("timestamp", .string time)]

/-- The response that tells that the service is alive. -/
def healthResponse (time : String) : Response :=
  .document 200 <|
    .ofMembers
      [("status", .string "healthy"), ("timestamp", .string time),
       ("version", .string version)]

/-- The response that tells about the agent. -/
def infoResponse (service : Service) (time : String) : Response :=
  match service.agent.card with
  | .ok card => .document 200 card.encode
  | .error error => errorResponse time error

/-- Start a run and record it. -/
def start (service : Service) (time : String) (request : Request) : Outcome × Service :=
  match readBody service.config.maxBody request with
  | .error fault => (.respond fault.response, service)
  | .ok input =>
      let (input, supply) := identified input service.supply
      match service.agent.answer input supply with
      | .error error => (.respond (errorResponse time error), { service with supply })
      | .ok (source, supply) =>
          let (log, archive) :=
            service.archive.record input.runId source service.config.retention
          (.follow log 0, { service with archive, supply })

/--
The answer to who asks for the events so far.  The log is read twice: for its events
first, and then for whether it is finished.
-/
def eventsSoFar (runId : String) (number : Nat) (first second : RunLog) : Json :=
  .ofMembers
    [("runId", .string runId), ("finished", .bool second.finished),
     ("events", .array ((first.eventsAfter number).map Event.encode))]

/-- Find what a client wants of a run. -/
def resume (service : Service) (time segment query : String) : Outcome :=
  match Text.Utf8.decode? (Text.percentDecode segment.toList) with
  | none => .respond (.text 400 "Invalid URL: Invalid UTF-8 in `run_id`")
  | some runId =>
      match ResumeQuery.read query with
      | .error fault => .respond (ResumeQuery.refuse fault)
      | .ok query =>
          let number := query.startingAfter.getD 0
          match service.archive.store.number? runId, service.archive.store.find? runId with
          | some log, some found =>
              if query.stream = some false then
                .respond (.document 200 (eventsSoFar runId number found found))
              else
                .follow log number
          | _, _ => .respond (errorResponse time (.runNotFound runId))

/-- What a request to a route comes to. -/
def outcome
    (service : Service)
    (time : String)
    (route : Route)
    (request : Request) :
    Outcome × Service :=
  if route.methods.contains request.method then
    match route with
    | .health => (.respond (healthResponse time), service)
    | .info => (.respond (service.infoResponse time), service)
    | .stream => service.start time request
    | .run segment => (service.resume time segment request.query, service)
  else
    (.respond (.withHeader ⟨405, [], .empty⟩ "allow" route.allow), service)

/--
Carry out what a request comes to.  Whoever asks for the headers only does not
follow a log.
-/
def carryOut (service : Service) (request : Request) : Outcome → Response × Service
  | .respond response =>
      (if request.method = "HEAD" then response.withoutBody else response, service)
  | .follow log number =>
      if request.method = "HEAD" then
        ((Response.events "").withoutBody, service)
      else
        let (stream, archive) := service.archive.follow log number none
        let keepAlive := ⟨service.config.keepAlive, true⟩
        (.events (Sse.writeBody keepAlive stream), { service with archive })

/-- The origins that may use the service. -/
def originPolicy (service : Service) : OriginPolicy :=
  if service.config.cors then .ofList service.config.origins else .closed

/-- The response to a request at a path. -/
def serve
    (service : Service)
    (time : String)
    (request : Request) :
    Response × Service :=
  let route := Route.ofPath? request.path
  match service.originPolicy.preflight? request, route with
  | some response, some route => (response.withHeader "allow" route.allow, service)
  | some response, none => (response, service)
  | none, some route =>
      let (outcome, service) := service.outcome time route request
      service.carryOut request outcome
  | none, none => (⟨404, [], .empty⟩, service)

/-- Answer a request at a time. -/
def answer
    (service : Service)
    (time : String)
    (request : Request) :
    Response × Service :=
  let (response, later) := service.serve time request
  (service.originPolicy.apply request response, later)

/-- Let time pass. -/
def wait (service : Service) (milliseconds : Nat) : Service :=
  { service with archive := service.archive.wait milliseconds }

end Service

end AgentWire.Server

import AgentWire.Clock
import AgentWire.Server.Encoder
import AgentWire.Text.Blank

namespace AgentWire.Server

/-!
# Streams of events

What an agent answers a request with: events, with pauses in between.  The
streams here are complete runs, from their first event to the one that ends them.
-/

open Chat (Registry Update)

/-- Events over time. -/
abbrev EventStream := List (Timed Event)

namespace EventStream

/-- The events of a stream. -/
def events (stream : EventStream) : List Event :=
  stream.filterMap fun
    | .arrival event => some event
    | .pause _ => none

/-- Events without pauses are those of their stream. -/
theorem events_arrivals (events : List Event) :
    EventStream.events (events.map .arrival) = events := by
  rw [EventStream.events, List.filterMap_map]
  exact List.filterMap_some

theorem events_append (first rest : EventStream) :
    EventStream.events (first ++ rest) = first.events ++ rest.events :=
  List.filterMap_append

/-- How long a stream takes. -/
def duration : EventStream → Nat
  | [] => 0
  | .arrival _ :: rest => duration rest
  | .pause milliseconds :: rest => milliseconds + duration rest

/-- A stream of these bodies without pauses. -/
def ofBodies (bodies : List EventBody) : EventStream :=
  bodies.map (.arrival ·.toEvent)

/-- A run that says one text in one message. -/
def ofText (threadId runId text : String) (supply : IdSupply) : EventStream × IdSupply :=
  let (id, supply) := supply.fresh
  (ofBodies
    [.runStarted threadId runId, .textMessageStart id Role.assistant.name,
     .textMessageContent id text, .textMessageEnd id, .runFinished threadId runId none],
   supply)

/-- The contents of a message word by word, with a pause behind each word. -/
def wordContents (id : String) (delay : Nat) : List String → EventStream
  | [] => []
  | [word] => [.arrival (EventBody.textMessageContent id word).toEvent, .pause delay]
  | word :: rest =>
      .arrival (EventBody.textMessageContent id (word ++ " ")).toEvent
        :: .pause delay
        :: wordContents id delay rest

/-- A run that says the words of a text one by one in one message. -/
def ofWords
    (threadId runId text : String)
    (delay : Nat)
    (supply : IdSupply) :
    EventStream × IdSupply :=
  let (id, supply) := supply.fresh
  (ofBodies [.runStarted threadId runId, .textMessageStart id Role.assistant.name]
    ++ wordContents id delay (Text.words text)
    ++ ofBodies [.textMessageEnd id, .runFinished threadId runId none],
   supply)

/-- A run that fails. -/
def ofError (message : String) : EventStream :=
  ofBodies [.runError message none]

/-- The event that ends a run whose updates cannot be encoded. -/
def encodingError (error : ServerError) : Event :=
  (EventBody.runError error.message (some error.name)).toEvent

/-- Encode the updates of a run up to its end; an update that cannot be encoded ends it. -/
def encodeUpdates (encoder : Encoder) : List (Timed Update) → EventStream × Encoder
  | [] =>
      let (events, encoder) := encoder.finish none
      (events.map .arrival, encoder)
  | .pause milliseconds :: rest =>
      let (stream, encoder) := encodeUpdates encoder rest
      (.pause milliseconds :: stream, encoder)
  | .arrival update :: rest =>
      match encoder.encode update with
      | (.error error, encoder) => ([.arrival (encodingError error)], encoder)
      | (.ok events, encoder) =>
          if encoder.stopped then
            (events.map .arrival, encoder)
          else
            let (stream, encoder) := encodeUpdates encoder rest
            (events.map .arrival ++ stream, encoder)

/-- The run that these updates make. -/
def ofUpdates
    (threadId runId : String)
    (registry : Registry)
    (updates : List (Timed Update))
    (supply : IdSupply) :
    EventStream × IdSupply :=
  let (started, encoder) := ({ threadId, runId, registry, supply } : Encoder).start
  let (stream, encoder) := encodeUpdates encoder updates
  (started.map .arrival ++ stream, encoder.supply)

end EventStream

end AgentWire.Server

import AgentWire.Event.Decoder

namespace AgentWire.Resume

/-!
# Progress of a run

What a client has to remember to go on with a run: the server's id of the run,
the number of the last event, and the events themselves.
-/

/-- How far a run has got. -/
structure Progress where
  responseId : Option String := none
  lastNumber : UInt64 := 0
  lastMessageId : Option String := none
  events : List Event := []
  deriving Repr, DecidableEq

namespace Progress

/-- Whether the server can be asked to go on with the run. -/
def isResumable (progress : Progress) : Bool :=
  progress.responseId.isSome

/-- The id that an event gives to its run. -/
def announcedId? : EventBody → Option String
  | .runStarted _ runId => if runId.isEmpty then none else some runId
  | _ => none

/-- The text message that an event starts. -/
def startedMessage? : EventBody → Option String
  | .textMessageStart messageId _ => some messageId
  | _ => none

/-- Note an event that was delivered. -/
def record (progress : Progress) (event : Event) : Progress where
  responseId := (announcedId? event.body).or progress.responseId
  lastNumber := event.sequenceNumber.getD progress.lastNumber
  lastMessageId := (startedMessage? event.body).or progress.lastMessageId
  events := progress.events ++ [event]

/-- Note an event and the number of the last one. -/
def recordAt (progress : Progress) (event : Event) (lastNumber : UInt64) : Progress :=
  { progress.record event with lastNumber := lastNumber }

/-- The wire form of progress. -/
def encode (progress : Progress) : Json :=
  .object
    [("responseId", Json.orNull progress.responseId .string),
     ("lastSequenceNumber", .word progress.lastNumber),
     ("lastMessageId", Json.orNull progress.lastMessageId .string),
     ("bufferedEvents", .array (progress.events.map Event.encode))]

/-- The members of progress. -/
def schema : Json.Schema :=
  ⟨"struct ResumeState",
   [.nullable "responseId" Json.Decoder.string,
    .required "lastSequenceNumber" Json.Decoder.word,
    .nullable "lastMessageId" Json.Decoder.string,
    .defaulted "bufferedEvents" (Json.Decoder.list Event.decode)]⟩

/-- Decode progress. -/
def decode : Json.Decoder Progress := fun route draft => do
  let parts ← schema.parts route draft
  let responseId ← parts.optional "responseId" Json.Decoder.string
  let lastNumber ← parts.required "lastSequenceNumber" Json.Decoder.word
  let lastMessageId ← parts.optional "lastMessageId" Json.Decoder.string
  let events ← parts.listOrEmpty "bufferedEvents" (Json.Decoder.list Event.decode)
  .ok { responseId, lastNumber, lastMessageId, events }

end Progress

end AgentWire.Resume

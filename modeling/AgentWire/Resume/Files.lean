import AgentWire.Client.Error
import AgentWire.IdSupply
import AgentWire.Resume.Folder
import AgentWire.Resume.Progress
import AgentWire.Text.Blank
import AgentWire.Text.Lines
import AgentWire.Text.Percent

namespace AgentWire.Resume

/-!
# Progress in files

One file for each key.  Its first line is a header without the events, and one
line follows for each event, so that an event costs one appended line.  A whole
state is written to another file first, which then takes the place of the old one.
-/

open Client (ClientError)

/-- The header line of progress. -/
def headerOf (progress : Progress) : Json :=
  .object
    [("responseId", Json.orNull progress.responseId .string),
     ("lastSequenceNumber", .word progress.lastNumber),
     ("lastMessageId", Json.orNull progress.lastMessageId .string)]

/-- The members of a header line. -/
def headerSchema : Json.Schema :=
  ⟨"struct Header",
   [.nullable "responseId" Json.Decoder.string,
    .required "lastSequenceNumber" Json.Decoder.word,
    .nullable "lastMessageId" Json.Decoder.string]⟩

/-- Decode a header line to progress without events. -/
def decodeHeader : Json.Decoder Progress := fun route draft => do
  let parts ← headerSchema.parts route draft
  let responseId ← parts.optional "responseId" Json.Decoder.string
  let lastNumber ← parts.required "lastSequenceNumber" Json.Decoder.word
  let lastMessageId ← parts.optional "lastMessageId" Json.Decoder.string
  .ok { responseId, lastNumber, lastMessageId }

/-- The line of an event. -/
def entryOf (event : Event) (lastNumber : UInt64) : Json :=
  .object [("lastSequenceNumber", .word lastNumber), ("event", event.encode)]

/-- The members of an event's line. -/
def entrySchema : Json.Schema :=
  ⟨"struct AppendedEvent",
   [.required "lastSequenceNumber" Json.Decoder.word, .required "event" Event.decode]⟩

/-- Decode the line of an event. -/
def decodeEntry : Json.Decoder (Event × UInt64) := fun route draft => do
  let parts ← entrySchema.parts route draft
  let lastNumber ← parts.required "lastSequenceNumber" Json.Decoder.word
  let event ← parts.required "event" Event.decode
  .ok (event, lastNumber)

/-- A document on a line of its own. -/
def lineOf (document : Json) : Text.Bytes :=
  document.bytes ++ [Text.newlineByte]

/-- The content of the file of progress. -/
def fileOf (progress : Progress) : Text.Bytes :=
  lineOf (headerOf progress)
    ++ progress.events.flatMap fun event => lineOf (entryOf event progress.lastNumber)

/-- Note the events of some lines, up to the first one that cannot be read. -/
def recordLines (progress : Progress) : List String → Progress
  | [] => progress
  | line :: rest =>
      if Text.isBlankText line then
        recordLines progress rest
      else
        match decodeEntry.text line with
        | .ok (event, lastNumber) => recordLines (progress.recordAt event lastNumber) rest
        | .error _ => progress

/-- The progress in a file, unless its header cannot be read. -/
def ofFile? (content : Text.Bytes) : Option Progress :=
  match (Text.Utf8.decode? content).map Text.lines with
  | some (header :: rest) =>
      match decodeHeader.text header with
      | .ok progress => some (recordLines progress rest)
      | .error _ => none
  | _ => none

/-- Files with progress, in a folder that has this path. -/
structure Files where
  path : String
  folder : Folder := .absent
  supply : IdSupply := {}
  /-- The greatest length of a name, if the system has one. -/
  longestName : Option Nat := some Folder.longestName
  deriving Repr, DecidableEq

namespace Files

/-- The name of the file of a key. -/
def nameOf (key : String) : String :=
  Text.percentEncode key ++ ".jsonl"

/-- The name under which the content of a key is first written. -/
def stagingName (key id : String) : String :=
  (if key.isEmpty then ".jsonl" else Text.percentEncode key) ++ "."
    ++ String.ofList (id.toList.filter (· != '-')) ++ ".tmp"

/-- The path of a file. -/
def pathOf (files : Files) (name : String) : String :=
  if files.path.isEmpty || files.path.endsWith "/" then
    files.path ++ name
  else
    files.path ++ "/" ++ name

/-- The error of an action on a path. -/
def storageError (action path : String) (fault : FileFault) : ClientError :=
  .storage ("Failed to " ++ action ++ " resume state " ++ path ++ ": " ++ fault.message)

/-- Drop the progress under a key. -/
def clear (files : Files) (key : String) : Except ClientError Files :=
  match files.folder.remove (nameOf key) files.longestName with
  | .ok folder => .ok { files with folder }
  | .error .notFound => .ok files
  | .error fault => .error (storageError "remove" (files.pathOf (nameOf key)) fault)

/-- The progress under a key; a file that cannot be read is dropped. -/
def load (files : Files) (key : String) : Except ClientError (Option Progress × Files) :=
  match files.folder.read (nameOf key) files.longestName with
  | .error .notFound => .ok (none, files)
  | .error fault => .error (storageError "read" (files.pathOf (nameOf key)) fault)
  | .ok content =>
      match ofFile? content with
      | some progress => .ok (some progress, files)
      | none => do
          let files ← files.clear key
          .ok (none, files)

/-- Replace the progress under a key.  What was done before a failure stays done. -/
def save (files : Files) (key : String) (progress : Progress) : Except ClientError Unit × Files :=
  match files.folder.create with
  | .error fault => (.error (storageError "create directory for" files.path fault), files)
  | .ok folder =>
      let (id, supply) := files.supply.fresh
      let staging := stagingName key id
      let files := { files with folder, supply }
      match folder.write staging (fileOf progress) files.longestName with
      | .error fault => (.error (storageError "write" (files.pathOf staging) fault), files)
      | .ok written =>
          match written.rename staging (nameOf key) files.longestName with
          | .error fault =>
              (.error (storageError "replace" (files.pathOf (nameOf key)) fault),
               { files with folder := written })
          | .ok folder => (.ok (), { files with folder })

/-- Add an event to the progress under a key, which may be new. -/
def append
    (files : Files)
    (key : String)
    (event : Event)
    (lastNumber : UInt64) :
    Except ClientError Unit × Files :=
  let line := lineOf (entryOf event lastNumber)
  match files.folder.append (nameOf key) line files.longestName with
  | .ok folder => (.ok (), { files with folder })
  | .error .notFound => files.save key (({} : Progress).recordAt event lastNumber)
  | .error fault => (.error (storageError "open" (files.pathOf (nameOf key)) fault), files)

end Files

end AgentWire.Resume

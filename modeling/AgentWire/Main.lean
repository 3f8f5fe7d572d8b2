import AgentWire.Cli.Transcript
import AgentWire.Http.Wire
import AgentWire.Sse.Feed
import Std.Async.DNS
import Std.Async.TCP

namespace AgentWire.Cli

/-!
# The client at a terminal

What a call asks for is done here: files are read and written, servers are
connected, time is waited out, and the transcript is printed piece by piece.
-/

open Client (Action Answer Call ClientError Config HttpLine Reply Scene)
open Resume (Entry Files Folder Store)
open Std.Async (Async DNS.getAddrInfo)
open Std.Async.TCP.Socket (Client)

/-- The variables that settings are read from, with their values. -/
def readEnvironment : IO (List (String × String)) :=
  [Client.endpointVariable, Client.attemptsVariable, Client.resumeDirVariable].filterMapM
    fun name => do
      let value ← IO.getEnv name
      return value.map (name, ·)

/-- The part of a folder that a key needs, as it stands on the disk. -/
def readFolder (files : Files) (key : String) : IO Folder := do
  let name := Files.nameOf key
  if !Folder.takesName files.longestName name then
    return .present []
  try
    let content ← IO.FS.readBinFile (files.pathOf name)
    return .present [(name, .file content.toList)]
  catch
    | .noFileOrDirectory .. => return .present []
    | .inappropriateType _ 21 _ => return .present [(name, .folder)]
    | .inappropriateType .. => return .blocked
    | error => throw error

/-- The file of a key in a folder. -/
def contentOf (files : Files) (folder : Folder) (key : String) : Option Text.Bytes :=
  (folder.read (Files.nameOf key) files.longestName).toOption

/-- Change the file of a key on the disk.  What only grows is added to the end. -/
def writeFolder (files : Files) (key : String) (old new : Folder) : IO Unit := do
  let path := files.pathOf (Files.nameOf key)
  match contentOf files old key, contentOf files new key with
  | none, none => return
  | some _, none => IO.FS.removeFile path
  | some before, some content =>
      if before.isPrefixOf content then
        let handle ← IO.FS.Handle.mk path .append
        handle.write (content.drop before.length).toByteArray
      else
        replace path content
  | none, some content => do
      IO.FS.createDirAll files.path
      replace path content
where
  /-- Write a file elsewhere, then put it in its place. -/
  replace (path : String) (content : Text.Bytes) : IO Unit := do
    IO.FS.writeBinFile (path ++ ".tmp") content.toByteArray
    IO.FS.rename (path ++ ".tmp") path

/-- Let a store answer an action. -/
def useStore (store : Store) (key : String) (action : Action) : IO (Answer × Store) := do
  match store with
  | .memory _ =>
      let (answer, scene) := ({ store } : Scene).perform key action
      return (answer, scene.store)
  | .files files =>
      try
        let old ← readFolder files key
        let store := Store.files { files with folder := old }
        let (answer, scene) := ({ store } : Scene).perform key action
        match scene.store with
        | .memory _ => return (answer, scene.store)
        | .files left =>
            writeFolder files key old left.folder
            return (answer, scene.store)
      catch error =>
        let message := "Failed to reach resume state " ++ files.path ++ ": " ++ toString error
        return (.failed (.storage message), store)

/-- The most bytes that are received at once. -/
def chunkSize : UInt64 := 16384

/-- Receive the head of a response, and what came of the body with it. -/
partial def receiveHead
    (socket : Client)
    (received : Text.Bytes) :
    Async (Option (Nat × Text.Bytes)) := do
  match Http.splitHead? received with
  | some (head, body) => return (Http.statusOf? head).map (·, body)
  | none =>
      match ← socket.recv? chunkSize with
      | none => return none
      | some bytes => receiveHead socket (received ++ bytes.toList)

/-- Receive everything up to the end. -/
partial def receiveAll (socket : Client) (received : Text.Bytes) : Async Text.Bytes := do
  match ← socket.recv? chunkSize with
  | none => return received
  | some bytes => receiveAll socket (received ++ bytes.toList)

/-- An open connection. -/
structure Connection where
  socket : Client
  feed : Sse.Feed

/-- Connect to the first of some addresses that answers. -/
def connectAny (port : UInt16) : List Std.Net.IPAddr → Async Client
  | [] => throw (IO.userError "no address answers")
  | address :: rest =>
      let place : Std.Net.SocketAddress :=
        match address with
        | .v4 addr => .v4 { addr, port }
        | .v6 addr => .v6 { addr, port }
      try
        let socket ← Client.mk
        socket.connect place
        return socket
      catch _ => connectAny port rest

/-- Send a request, and receive the reply up to the start of its body. -/
def exchange
    (request : Http.Request)
    (address : Http.Address) :
    Async (Option (Except ClientError Connection)) := do
  let addresses ← DNS.getAddrInfo address.host (toString address.port)
  let socket ← connectAny (UInt16.ofNat address.port) addresses.toList
  socket.send (request.bytes address).toByteArray
  match ← receiveHead socket [] with
  | none => return none
  | some (status, body) =>
      if 200 ≤ status ∧ status < 300 then
        return some (.ok { socket, feed := ({} : Sse.Feed).take (.ok body) })
      else
        let body ← receiveAll socket body
        match HttpLine.receive { status, pieces := [.arrival (.ok body)] } with
        | .ok _ => return none
        | .error error => return some (.error error)

/-- Open a connection. -/
def connect (request : Http.Request) : IO (Except ClientError Connection) := do
  let failure := HttpLine.failed request
  match HttpLine.unsendable? request, Http.Address.ofText? request.target with
  | none, some address =>
      try
        return (← (exchange request address).block).getD (.error failure)
      catch _ => return .error failure
  | _, _ => return .error failure

/-- Read a frame from a connection. -/
partial def readFrame (connection : Connection) : IO (Answer × Connection) := do
  match connection.feed.next with
  | (some (.ok frame), feed) => return (.frame frame, { connection with feed })
  | (some (.error error), feed) => return (.failed error, { connection with feed })
  | (none, feed) =>
      let received ←
        try (connection.socket.recv? chunkSize).block catch _ => pure none
      match received with
      | some bytes =>
          readFrame { connection with feed := feed.take (.ok bytes.toList) }
      | none =>
          let feed := feed.close
          match feed.next with
          | (some (.ok frame), feed) => return (.frame frame, { connection with feed })
          | (some (.error error), feed) => return (.failed error, { connection with feed })
          | (none, feed) => return (.closed, { connection with feed })

/-- What a call is carried out with. -/
structure Desk where
  line : HttpLine
  store : Store
  connection : Option Connection := none

namespace Desk

/-- Do what a call asks for. -/
def perform (desk : Desk) (key : String) (action : Action) : IO (Answer × Desk) := do
  match action with
  | .connect request =>
      match ← connect (desk.line.ask request) with
      | .ok connection => return (.done, { desk with connection := some connection })
      | .error error => return (.failed error, { desk with connection := none })
  | .read =>
      match desk.connection with
      | none => return (.closed, desk)
      | some connection =>
          let (answer, connection) ← readFrame connection
          return (answer, { desk with connection := some connection })
  | .wait delay =>
      IO.sleep (UInt32.ofNat (Nat.min delay.milliseconds (UInt32.size - 1)))
      return (.done, desk)
  | _ =>
      let (answer, store) ← useStore desk.store key action
      return (answer, { desk with store })

end Desk

namespace Transcript

/-- Print a transcript and empty it. -/
def print (transcript : Transcript) : IO Transcript := do
  let output ← IO.getStdout
  output.putStr transcript.output
  output.flush
  IO.eprint transcript.report
  return { transcript with output := "", report := "" }

end Transcript

/-- Carry out a call to its end. -/
partial def carryOut (call : Call) (desk : Desk) (transcript : Transcript) : IO Transcript := do
  match call.action with
  | .finish => (transcript.take .ended).print
  | .fail error => (transcript.take (.failed error)).print
  | .check => carryOut (call.advance .done) desk transcript
  | .deliver update =>
      let transcript ← (transcript.take (.update update)).print
      carryOut (call.advance .done) desk transcript
  | .follow action =>
      let (answer, desk) ← desk.perform call.controller.key action
      carryOut (call.advance answer) desk transcript

/-- Carry out a command line that was read. -/
def Invocation.run (invocation : Invocation) : IO Transcript := do
  let environment ← readEnvironment
  match invocation.config (environment.lookup ·) with
  | .error message => (({} : Transcript).fail message).print
  | .ok config =>
      let start : Transcript := { conversation := invocation.conversation }
      let supply : IdSupply := { seed := ← IO.rand 0 (Nat.pow 2 60 - 1) }
      let settings : Client.CallSettings := { policy := config.retry }
      match Call.start settings [invocation.message] invocation.callOptions supply with
      | .error error => (start.close.fail error.message).print
      | .ok call =>
          carryOut call { line := HttpLine.ofConfig config, store := Invocation.store config } start

/-- How the client is called. -/
def usage : String :=
  "usage: [--endpoint URL] [--conversation ID] [--resume-dir DIRECTORY] [--token TOKEN] "
    ++ "[--max-retries COUNT] [--log-level LEVEL] PROMPT..."

/-- Tell why a command line is not carried out. -/
def Invocation.refuse (fault : UsageFault) : IO Transcript := do
  if fault.isRequest then
    IO.println usage
  else
    IO.eprintln ("error: " ++ fault.name)
    IO.eprintln usage
  return .refused fault

end AgentWire.Cli

/-- The client's command line. -/
def main (line : List String) : IO UInt32 := do
  let transcript ←
    match AgentWire.Cli.Invocation.read line with
    | .ok invocation => invocation.run
    | .error fault => AgentWire.Cli.Invocation.refuse fault
  return UInt32.ofNat transcript.code

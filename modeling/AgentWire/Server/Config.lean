import AgentWire.Net.SocketAddress
import AgentWire.Server.Error

namespace AgentWire.Server

/-!
# Settings of a server

All times are in milliseconds.
-/

open Net (SocketAddress)

/-- The settings of a server. -/
structure ServerConfig where
  bind : SocketAddress := .v4 ⟨127, 0, 0, 1⟩ 3000
  /-- Whether pages of other origins may use the server. -/
  cors : Bool := true
  /-- The origins that may use the server; any one if there is no list. -/
  origins : Option (List String) := none
  /-- How many bytes the body of a request may have. -/
  maxBody : Nat := 1024 * 1024
  logging : Bool := true
  /-- How long a connection stays silent before a sign of life. -/
  keepAlive : Nat := 30000
  /-- How long the log of a run is kept when the run has ended. -/
  retention : Nat := 300000
  deriving Repr, DecidableEq

namespace ServerConfig

/-- Bind to the address that is written in a text. -/
def withBind (config : ServerConfig) (text : String) : Except ServerError ServerConfig :=
  match SocketAddress.ofText? text with
  | some bind => .ok { config with bind }
  | none => .error (.config "Invalid bind address: invalid socket address syntax")

end ServerConfig

end AgentWire.Server

import AgentWire.Event.Basic
import AgentWire.RunInput
import AgentWire.Text.Percent

namespace AgentWire.Client

/-!
# Connections

A connection is opened with a request and hands over frames.
-/

/-- What a client asks a server for. -/
inductive Request where
  /-- Start a run. -/
  | create (input : RunInput)
  /-- Go on with a run behind the event with a number. -/
  | resume (responseId : String) (startingAfter : UInt64)
  deriving Repr, DecidableEq

/-- What a connection hands over. -/
inductive Frame where
  | event (event : Event)
  /-- The mark behind the last event. -/
  | done
  deriving Repr, DecidableEq

/-- The address of an endpoint without the slashes at its end. -/
def endpointOf (address : String) : String :=
  String.ofList (address.toList.reverse.dropWhile (· == '/')).reverse

/-- The address under which a run is resumed. -/
def resumeAddress (endpoint responseId : String) : String :=
  endpoint ++ "/" ++ Text.percentEncode responseId

end AgentWire.Client

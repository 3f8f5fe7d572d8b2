import AgentWire.Chat.Message
import AgentWire.Event.Basic
import AgentWire.IdSupply

namespace AgentWire.Client

/-!
# The conversation id of a call

The caller's id wins, then the first id that the server reports, then a
generated one.  Once it stands on an update it never changes.  Empty ids count
as absent.
-/

/-- The candidates for the conversation id of one call. -/
structure Identity where
  clientId : Option String := none
  serverId : Option String := none
  resolved : Option String := none
  deriving Repr, DecidableEq

namespace Identity

/-- The identity of a call for which the caller may have given an id. -/
def ofClient (given : Option String) : Identity where
  clientId := given.bind nonempty?

/-- Whether the caller has given the id. -/
def isClientSupplied (identity : Identity) : Bool :=
  identity.clientId.isSome

/-- Note an id that the server reports; only the first one before the choice counts. -/
def observeId (identity : Identity) (reported : Option String) : Identity :=
  if identity.serverId.isNone && identity.resolved.isNone then
    { identity with serverId := reported.bind nonempty? }
  else
    identity

/-- Note the thread id of an event that starts or ends a run. -/
def observe (identity : Identity) (event : Event) : Identity :=
  match event.body with
  | .runStarted threadId _ => identity.observeId (some threadId)
  | .runFinished threadId _ _ => identity.observeId (some threadId)
  | _ => identity

/-- The id of the call; it is chosen when it is first needed. -/
def conversationId
    (identity : Identity)
    (supply : IdSupply) :
    String × Identity × IdSupply :=
  match identity.resolved with
  | some id => (id, identity, supply)
  | none =>
      match identity.clientId.or identity.serverId with
      | some id => (id, { identity with resolved := some id }, supply)
      | none =>
          let (id, supply) := supply.fresh
          (id, { identity with resolved := some id }, supply)

/-- Put the id of the call on an update. -/
def stamp
    (identity : Identity)
    (supply : IdSupply)
    (update : Chat.Update) :
    Chat.Update × Identity × IdSupply :=
  let (id, identity, supply) := identity.conversationId supply
  ({ update with conversationId := some id }, identity, supply)

end Identity

end AgentWire.Client

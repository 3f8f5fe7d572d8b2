import AgentWire.Chat.Item
import AgentWire.Role

namespace AgentWire.Chat

/-!
# Chat messages and updates

A message is what an application sends; an update is one unit of what streams in.
-/

/-- When something was made: now, or at a number of milliseconds since 1970. -/
inductive Moment where
  | now
  | at (milliseconds : Int64)
  deriving Repr, DecidableEq

namespace Moment

/-- The milliseconds for which there is a calendar date. -/
def isDate (milliseconds : Int64) : Bool :=
  -8334601228800000 ≤ milliseconds && milliseconds ≤ 8210266876799999

/-- The moment of a timestamp; without one, or without a date for it, it is now. -/
def ofTimestamp : Option Int64 → Moment
  | some milliseconds => if isDate milliseconds then .at milliseconds else .now
  | none => .now

end Moment

/-- A message of a chat application. -/
structure ChatMessage where
  role : Role
  contents : List ContentItem
  messageId : Option String := none
  authorName : Option String := none
  deriving Repr, DecidableEq

namespace ChatMessage

/-- The texts of a message, one after the other. -/
def text (message : ChatMessage) : String :=
  textOf message.contents

/-- The message under an identifier. -/
def withId (message : ChatMessage) (id : String) : ChatMessage :=
  { message with messageId := some id }

end ChatMessage

/-- One unit of a response as it streams in. -/
structure Update where
  role : Role
  contents : List ContentItem
  messageId : Option String := none
  responseId : Option String := none
  conversationId : Option String := none
  createdAt : Option Moment := none
  properties : Dictionary Json := []
  deriving Repr, DecidableEq

namespace Update

/-- The texts of an update, one after the other. -/
def text (update : Update) : String :=
  textOf update.contents

/-- Whether a property is there and true. -/
def hasFlag (update : Update) (name : String) : Bool :=
  update.properties.get? name == some (.bool true)

end Update

end AgentWire.Chat

import AgentWire.Chat.Message

namespace AgentWire.Chat

/-!
# Responses

A response is folded from updates.  Updates in a row with the same role and
message id make one message, and texts that meet inside a message are joined.
-/

/-- A whole response. -/
structure Response where
  messages : List ChatMessage := []
  responseId : Option String := none
  conversationId : Option String := none
  createdAt : Option Moment := none
  deriving Repr, DecidableEq

/-- Add an item behind others; a text is joined to a text before it. -/
def appendItem (items : List ContentItem) (item : ContentItem) : List ContentItem :=
  match items.getLast?, item with
  | some (.text before), .text more => items.dropLast ++ [.text (before ++ more)]
  | _, _ => items ++ [item]

/-- Add items behind others. -/
def appendItems (items more : List ContentItem) : List ContentItem :=
  more.foldl appendItem items

namespace Update

/-- Whether an update goes on with a message. -/
def continues (update : Update) (message : ChatMessage) : Bool :=
  message.role == update.role
    && (update.messageId.isNone || message.messageId == update.messageId)

/-- The message that an update starts. -/
def start (update : Update) : ChatMessage where
  role := update.role
  contents := appendItems [] update.contents
  messageId := update.messageId

end Update

/-- Add the contents of an update to the last message or as a new one. -/
def addContents (messages : List ChatMessage) (update : Update) : List ChatMessage :=
  if update.contents.isEmpty then
    messages
  else
    match messages.getLast? with
    | some last =>
        if update.continues last then
          messages.dropLast
            ++ [{ last with contents := appendItems last.contents update.contents }]
        else
          messages ++ [update.start]
    | none => [update.start]

namespace Response

/-- Fold one update into a response. -/
def add (response : Response) (update : Update) : Response where
  messages := addContents response.messages update
  responseId := update.responseId.or response.responseId
  conversationId := update.conversationId.or response.conversationId
  createdAt := response.createdAt.or update.createdAt

/-- The response that updates make. -/
def ofUpdates (updates : List Update) : Response :=
  updates.foldl add {}

/-- The texts of all messages, one after the other. -/
def text (response : Response) : String :=
  String.join (response.messages.map ChatMessage.text)

end Response

end AgentWire.Chat

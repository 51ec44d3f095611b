import ChatRelay.Reader

namespace ChatRelay

-- Answers requests for messages of one chat.
abbrev MessageLookup := String → List String → Except ReadError (List Message)

namespace Reader

-- The first occurrence of each trimmed identifier, blank ones left out.
def wanted (ids : List String) : List String := go [] (ids.filterMap Text.nonBlank?)
where
  go (seen : List String) : List String → List String
    | [] => []
    | id :: rest => if id ∈ seen then go seen rest else id :: go (id :: seen) rest

-- The event, if it can be read and is of the chat.
def eventOf? (r : Reader) (chatId id : String) : Option Event :=
  match r.event id with
  | .ok (some e) => if e.roomId = chatId then some e else none
  | _ => none

def eventsOf (r : Reader) (chatId : String) (ids : List String) : List Event :=
  (wanted ids).filterMap (r.eventOf? chatId)

-- An answer that fails counts as empty.
def orEmpty {α : Type} : Except ReadError (Table α) → Table α
  | .ok t => t
  | .error _ => ∅

-- What is known about a chat for rendering these events.
def contextOf (r : Reader) (room : Room) (chatId : String) (events : List Event) : ChatContext where
  accountId := room.accountId
  ownUserId := r.ownUserId
  memberNames := orEmpty (r.memberNames chatId)
  reactions := orEmpty (r.reactions chatId (events.map (·.eventId)))

-- Hands out messages by the trimmed identifiers, each message once.
def handOut (messages : Table Message) : List String → List Message
  | [] => []
  | id :: rest =>
    match messages.get? (Text.trim id) with
    | some m => m :: handOut (messages.erase (Text.trim id)) rest
    | none => handOut messages rest

-- The messages of a chat, in the order in which they are asked for.
def messages (r : Reader) : MessageLookup := fun chatId ids => do
  let some room ← r.room chatId | return []
  let events := r.eventsOf chatId ids
  if events.isEmpty then return []
  let context := r.contextOf room chatId events
  return handOut (.ofList ((events.filterMap (·.render? context)).map fun m => (m.id, m))) ids

end Reader

end ChatRelay

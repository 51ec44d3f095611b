import ChatRelay.Json.Record

namespace ChatRelay

inductive ChangeKind where
  | chatUpserted
  | chatDeleted
  | messageUpserted
  | messageDeleted
deriving DecidableEq, Inhabited

namespace ChangeKind

def all : List ChangeKind := [chatUpserted, chatDeleted, messageUpserted, messageDeleted]

def name : ChangeKind → String
  | chatUpserted => "chat.upserted"
  | chatDeleted => "chat.deleted"
  | messageUpserted => "message.upserted"
  | messageDeleted => "message.deleted"

def ofName? (s : String) : Option ChangeKind := all.find? (·.name = s)

end ChangeKind

-- A change of a chat and the things that it touches: the chat itself, or messages.
structure Change where
  kind : ChangeKind
  chatId : String
  ids : IdSet
deriving DecidableEq, Inhabited

namespace Change

def ofChat (kind : ChangeKind) (chatId : String) : Change :=
  { kind, chatId, ids := .ofList [chatId] }

def ofMessages (kind : ChangeKind) (chatId : String) (ids : IdSet) : Change := { kind, chatId, ids }

end Change

-- A change as it is pushed to one connection: the sequence number is the connection's own.
structure ChangeMessage where
  change : Change
  sequence : Nat
  -- The time at the server, in milliseconds since the epoch.
  time : Int
  entries : Option (List Json)
deriving Inhabited

def ChangeMessage.toJson (m : ChangeMessage) : Json :=
  .mkSome [
    ("type", some (.string m.change.kind.name)),
    ("seq", some (.nat m.sequence)),
    ("ts", some (.int m.time)),
    ("chatID", some (.string m.change.chatId)),
    ("ids", some (.strings m.change.ids.toList)),
    ("entries", m.entries.map .array)]

end ChatRelay

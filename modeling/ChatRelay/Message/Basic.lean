import ChatRelay.Json.Record

namespace ChatRelay

open Json (Layout Fields)

inductive MessageType where
  | text | notice | image | video | audio | file | location | sticker | reaction
deriving DecidableEq, Inhabited

structure PixelSize where
  width : Nat
  height : Nat
deriving DecidableEq, Inhabited

structure Attachment where
  id : String
  type : String
  sourceUrl : String
  fileName : Option String := none
  mimeType : Option String := none
  fileSize : Option Nat := none
  size : Option PixelSize := none
  -- Playing time in seconds.
  duration : Option Binary64 := none
  posterImage : Option String := none
  isGif : Bool := false
  isSticker : Bool := false
deriving DecidableEq, Inhabited

structure Reaction where
  id : String
  key : String
  participantId : String
  emoji : Bool
deriving DecidableEq, Inhabited

-- A message as subscribers see it.
structure Message where
  id : String
  chatId : String
  accountId : String
  senderId : String
  senderName : String
  timestamp : String
  sortKey : String
  isSender : Bool
  type : MessageType
  text : String
  linkedMessageId : Option String := none
  attachments : List Attachment := []
  reactions : List Reaction := []
deriving DecidableEq, Inhabited

namespace MessageType

def all : List MessageType :=
  [.text, .notice, .image, .video, .audio, .file, .location, .sticker, .reaction]

def name : MessageType → String
  | text => "TEXT"
  | notice => "NOTICE"
  | image => "IMAGE"
  | video => "VIDEO"
  | audio => "AUDIO"
  | file => "FILE"
  | location => "LOCATION"
  | sticker => "STICKER"
  | reaction => "REACTION"

def ofName? (s : String) : Option MessageType := all.find? (·.name = s)

def ofJson? (v : Json) : Option MessageType := v.tag?.bind ofName?

end MessageType

namespace PixelSize

def layout : Layout := [("width", false), ("height", false)]

def ofJson? (v : Json) : Option PixelSize := do
  let fields ← layout.fields? v
  let width ← Fields.required fields "width" Json.unsigned?
  let height ← Fields.required fields "height" Json.unsigned?
  some { width, height }

def toJson (s : PixelSize) : Json := .mk [("width", .nat s.width), ("height", .nat s.height)]

end PixelSize

namespace Attachment

def layout : Layout :=
  ["id", "type", "srcURL", "fileName", "mimeType", "fileSize", "size", "duration",
   "posterImg"].map (·, false) ++ [("isGif", true), ("isSticker", true)]

def ofJson? (v : Json) : Option Attachment := do
  let fields ← layout.fields? v
  let id ← Fields.required fields "id" Json.string?
  let type ← Fields.required fields "type" Json.string?
  let sourceUrl ← Fields.required fields "srcURL" Json.string?
  let fileName ← Fields.optional fields "fileName" Json.string?
  let mimeType ← Fields.optional fields "mimeType" Json.string?
  let fileSize ← Fields.optional fields "fileSize" Json.unsigned?
  let size ← Fields.optional fields "size" PixelSize.ofJson?
  let duration ← Fields.optional fields "duration" Json.real?
  let posterImage ← Fields.optional fields "posterImg" Json.string?
  let isGif ← Fields.withDefault fields "isGif" false Json.bool?
  let isSticker ← Fields.withDefault fields "isSticker" false Json.bool?
  some { id, type, sourceUrl, fileName, mimeType, fileSize, size, duration, posterImage,
         isGif, isSticker }

-- Flags that do not hold are left out.
def toJson (a : Attachment) : Json :=
  .mkSome [
    ("id", some (.string a.id)),
    ("type", some (.string a.type)),
    ("srcURL", some (.string a.sourceUrl)),
    ("fileName", a.fileName.map .string),
    ("mimeType", a.mimeType.map .string),
    ("fileSize", a.fileSize.map .nat),
    ("size", a.size.map PixelSize.toJson),
    ("duration", a.duration.map fun x => .number (.real x)),
    ("posterImg", a.posterImage.map .string),
    ("isGif", if a.isGif then some (.bool true) else none),
    ("isSticker", if a.isSticker then some (.bool true) else none)]

end Attachment

namespace Reaction

def layout : Layout := ["id", "reactionKey", "participantID", "emoji"].map (·, false)

def ofJson? (v : Json) : Option Reaction := do
  let fields ← layout.fields? v
  let id ← Fields.required fields "id" Json.string?
  let key ← Fields.required fields "reactionKey" Json.string?
  let participantId ← Fields.required fields "participantID" Json.string?
  let emoji ← Fields.required fields "emoji" Json.bool?
  some { id, key, participantId, emoji }

def toJson (r : Reaction) : Json :=
  .mk [("id", .string r.id), ("reactionKey", .string r.key),
    ("participantID", .string r.participantId), ("emoji", .bool r.emoji)]

end Reaction

namespace Message

def layout : Layout :=
  ["id", "chatID", "accountID", "senderID", "senderName", "timestamp", "sortKey", "isSender",
   "type", "text", "linkedMessageID"].map (·, false) ++ [("attachments", true), ("reactions", true)]

def ofJson? (v : Json) : Option Message := do
  let fields ← layout.fields? v
  let id ← Fields.required fields "id" Json.string?
  let chatId ← Fields.required fields "chatID" Json.string?
  let accountId ← Fields.required fields "accountID" Json.string?
  let senderId ← Fields.required fields "senderID" Json.string?
  let senderName ← Fields.required fields "senderName" Json.string?
  let timestamp ← Fields.required fields "timestamp" Json.string?
  let sortKey ← Fields.required fields "sortKey" Json.string?
  let isSender ← Fields.required fields "isSender" Json.bool?
  let type ← Fields.required fields "type" MessageType.ofJson?
  let text ← Fields.required fields "text" Json.string?
  let linkedMessageId ← Fields.optional fields "linkedMessageID" Json.string?
  let attachments ← Fields.withDefault fields "attachments" [] (Json.listOf Attachment.ofJson?)
  let reactions ← Fields.withDefault fields "reactions" [] (Json.listOf Reaction.ofJson?)
  some { id, chatId, accountId, senderId, senderName, timestamp, sortKey, isSender, type, text,
         linkedMessageId, attachments, reactions }

-- Empty lists are left out.
def toJson (m : Message) : Json :=
  .mkSome [
    ("id", some (.string m.id)),
    ("chatID", some (.string m.chatId)),
    ("accountID", some (.string m.accountId)),
    ("senderID", some (.string m.senderId)),
    ("senderName", some (.string m.senderName)),
    ("timestamp", some (.string m.timestamp)),
    ("sortKey", some (.string m.sortKey)),
    ("isSender", some (.bool m.isSender)),
    ("type", some (.string m.type.name)),
    ("text", some (.string m.text)),
    ("linkedMessageID", m.linkedMessageId.map .string),
    ("attachments",
      if m.attachments.isEmpty then none else some (.array (m.attachments.map Attachment.toJson))),
    ("reactions",
      if m.reactions.isEmpty then none else some (.array (m.reactions.map Reaction.toJson)))]

end Message

end ChatRelay

import ChatRelay.Message.Basic
import ChatRelay.Sync.Event
import ChatRelay.Text.Case
import ChatRelay.Timestamp

namespace ChatRelay

structure ChatContext where
  accountId : String
  ownUserId : String
  memberNames : Table String
  reactions : Table (List Reaction)
deriving Inhabited

namespace Event

-- The kinds of content of a message that the relay tells apart.
inductive ContentKind where
  | notice | image | video | audio | file | location | sticker | plain
deriving DecidableEq

namespace ContentKind

def ofName (name : String) : ContentKind :=
  if name = "m.notice" then notice
  else if name = "m.image" then image
  else if name = "m.video" then video
  else if name = "m.audio" then audio
  else if name = "m.file" then file
  else if name = "m.location" then location
  else if name = EventType.sticker then sticker
  else plain

-- The type of a message event; a sticker's type does not come from its content.
def messageType : ContentKind → MessageType
  | notice => .notice
  | image => .image
  | video => .video
  | audio => .audio
  | file => .file
  | location => .location
  | sticker | plain => .text

-- The type of the attachment that comes with the content, if one does.
def attachmentType? : ContentKind → Option String
  | image | sticker => some "img"
  | video => some "video"
  | audio => some "audio"
  | file => some "unknown"
  | notice | location | plain => none

end ContentKind

def filledAt? (path : List String) (v : Json) : Option String :=
  (v.stringAt? path).filter (· ≠ "")

-- Seconds of a positive number of milliseconds.
def seconds? (millis : Nat) : Option Binary64 :=
  if millis = 0 then none else (Binary64.ofNat millis).div? (Binary64.ofNat 1000)

-- The media that a message's content refers to.
def attachment? (kind : ContentKind) (content : Json) : Option Attachment :=
  kind.attachmentType?.map fun type =>
    let uri := (filledAt? ["url"] content <|> content.stringAt? ["file", "url"]).getD ""
    let info := (content.get? "info").getD .null
    let mimeType := filledAt? ["mimetype"] info
    let width := (info.unsignedAt? ["w"]).getD 0
    let height := (info.unsignedAt? ["h"]).getD 0
    { id := uri
      type
      sourceUrl := uri
      fileName := (content.stringAt? ["filename"] <|> content.stringAt? ["body"]).filter (· ≠ "")
      mimeType
      fileSize := info.unsignedAt? ["size"]
      size := if width = 0 ∧ height = 0 then none else some { width, height }
      duration := seconds? ((info.unsignedAt? ["duration"]).getD 0)
      posterImage := filledAt? ["thumbnail_url"] info
      isGif := kind == .image && mimeType.any (Text.lowerAscii · == "image/gif")
      isSticker := kind == .sticker }

-- Where a message stands in its chat: by its row, and without one by its time.
def sortKey (e : Event) : String :=
  if e.timelineRowId ≠ 0 then toString e.timelineRowId
  else if e.rowId ≠ 0 then toString e.rowId
  else toString e.timestamp

-- What the messages of all kinds of events have in common.
def commonMessage (e : Event) (context : ChatContext) : Message :=
  { id := e.eventId
    chatId := e.roomId
    accountId := context.accountId
    senderId := e.sender
    senderName := (context.memberNames.get? e.sender).getD e.sender
    timestamp := (Timestamp.ofMillis e.timestamp).toRfc3339
    sortKey := e.sortKey
    isSender := context.ownUserId ≠ "" && e.sender == context.ownUserId
    type := .text
    text := ""
    linkedMessageId := e.replyTo?
    reactions := (context.reactions.get? e.eventId).getD [] }

def reactionMessage (e : Event) (context : ChatContext) : Message :=
  let content := e.effectiveContent
  { e.commonMessage context with
    type := .reaction
    text := (content.stringAt? ["m.relates_to", "key"]).getD ""
    linkedMessageId := e.replyTo? <|> filledAt? ["m.relates_to", "event_id"] content }

-- The text of a message, or what the client rendered if it has none.
def bodyText (e : Event) : String :=
  let body := (e.effectiveContent.stringAt? ["body"]).getD ""
  if body = "" then (e.localContent.bind (·.sanitizedHtml)).getD "" else body

def contentMessage (e : Event) (context : ChatContext) : Message :=
  let content := e.effectiveContent
  let isSticker := e.effectiveType == EventType.sticker
  let kind :=
    if isSticker then .sticker else ContentKind.ofName ((content.stringAt? ["msgtype"]).getD "")
  { e.commonMessage context with
    type := if isSticker then .sticker else kind.messageType
    text := e.bodyText
    attachments := (attachment? kind content).toList }

-- The message of an event. A message or sticker needs an object for its content.
def render? (e : Event) (context : ChatContext) : Option Message :=
  if e.isRedacted || e.isEdit || !EventType.isMessageLike e.effectiveType then none
  else if e.effectiveType == EventType.reaction then some (e.reactionMessage context)
  else if e.effectiveContent.isObject then some (e.contentMessage context)
  else none

def reactionKey? (e : Event) : Option String :=
  if e.isRedacted then none
  else (e.effectiveContent.stringAt? ["m.relates_to", "key"]).bind Text.nonBlank?

end Event

namespace Reaction

-- A key of one or two characters is taken for an emoji.
def ofEvent (e : Event) (key : String) : Reaction :=
  { id := e.sender ++ ":" ++ key
    key
    participantId := e.sender
    emoji := key.length ≤ 2 }

-- The first reaction of each identifier, in their order.
def firstOfEach (seen : List String) : List Reaction → List Reaction
  | [] => []
  | r :: rest =>
    if r.id ∈ seen then firstOfEach seen rest else r :: firstOfEach (r.id :: seen) rest

def collect (events : List Event) : List Reaction :=
  firstOfEach [] (events.filterMap fun e => e.reactionKey?.map (ofEvent e))

end Reaction

end ChatRelay

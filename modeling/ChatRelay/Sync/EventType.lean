namespace ChatRelay.EventType

def message : String := "m.room.message"
def sticker : String := "m.sticker"
def reaction : String := "m.reaction"
def redaction : String := "m.room.redaction"
def member : String := "m.room.member"
def roomName : String := "m.room.name"
def roomAvatar : String := "m.room.avatar"
def topic : String := "m.room.topic"

-- The relation of an edit to the event it replaces.
def replacement : String := "m.replace"

-- Events that show up in a chat as a message or on one.
def isMessageLike (type : String) : Bool :=
  type == message || type == sticker || type == reaction

-- Events that change how a chat itself is shown.
def isChatState (type : String) : Bool :=
  type == member || type == roomName || type == roomAvatar || type == topic

end ChatRelay.EventType

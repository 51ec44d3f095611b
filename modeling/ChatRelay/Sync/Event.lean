import ChatRelay.Json.Value
import ChatRelay.Sync.EventType
import ChatRelay.Text.Blank

namespace ChatRelay

-- Content that the client itself rendered for an event.
structure LocalContent where
  sanitizedHtml : Option String := none
deriving Inhabited

-- A room event as the chat client hands it out. An encrypted event carries its decrypted type and
-- content beside the sealed ones.
structure Event where
  rowId : Int := 0
  timelineRowId : Int := 0
  roomId : String := ""
  eventId : String := ""
  sender : String := ""
  type : String := ""
  stateKey : Option String := none
  -- When the event's server received it, in milliseconds since the epoch.
  timestamp : Int := 0
  content : Json := .null
  decrypted : Option Json := none
  decryptedType : Option String := none
  redactedBy : Option String := none
  relatesTo : Option String := none
  relationType : Option String := none
  localContent : Option LocalContent := none
deriving Inhabited

namespace Event

-- The decrypted type of an encrypted event, otherwise the type.
def effectiveType (e : Event) : String :=
  match e.decryptedType with
  | some t => if t = "" then e.type else t
  | none => e.type

-- The decrypted content of an encrypted event, otherwise the content.
def effectiveContent (e : Event) : Json :=
  match e.decrypted with
  | none | some .null => e.content
  | some v => v

-- The trimmed identifier of the event, unless it is blank.
def id? (e : Event) : Option String := Text.nonBlank? e.eventId

def isRedacted (e : Event) : Bool := (e.redactedBy.bind Text.nonBlank?).isSome

def target? (e : Event) : Option String := e.relatesTo.bind Text.nonBlank?

def isEdit (e : Event) : Bool := e.relationType == some EventType.replacement

def replyTo? (e : Event) : Option String :=
  (e.effectiveContent.stringAt? ["m.relates_to", "m.in_reply_to", "event_id"]).filter (· ≠ "")

end Event

end ChatRelay

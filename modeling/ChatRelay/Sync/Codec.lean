import ChatRelay.Json.Record
import ChatRelay.Sync.Batch

namespace ChatRelay

open Json (Layout Fields)

namespace LocalContent

def layout : Layout := [("sanitized_html", true)]

def ofJson? (v : Json) : Option LocalContent := do
  let fields ← layout.fields? v
  let sanitizedHtml ← Fields.optional fields "sanitized_html" Json.string?
  some { sanitizedHtml }

def toJson (c : LocalContent) : Json :=
  .mkSome [("sanitized_html", c.sanitizedHtml.map .string)]

end LocalContent

namespace Event

def layout : Layout :=
  ["rowid", "timeline_rowid", "room_id", "event_id", "sender", "type", "state_key", "timestamp",
   "content", "decrypted", "decrypted_type", "redacted_by", "relates_to", "relation_type",
   "local_content"].map (·, true)

def ofJson? (v : Json) : Option Event := do
  let fields ← layout.fields? v
  let rowId ← Fields.withDefault fields "rowid" 0 Json.signed?
  let timelineRowId ← Fields.withDefault fields "timeline_rowid" 0 Json.signed?
  let roomId ← Fields.withDefault fields "room_id" "" Json.string?
  let eventId ← Fields.withDefault fields "event_id" "" Json.string?
  let sender ← Fields.withDefault fields "sender" "" Json.string?
  let type ← Fields.withDefault fields "type" "" Json.string?
  let stateKey ← Fields.optional fields "state_key" Json.string?
  let timestamp ← Fields.withDefault fields "timestamp" 0 Json.signed?
  let content ← Fields.withDefault fields "content" .null some
  let decrypted ← Fields.optional fields "decrypted" some
  let decryptedType ← Fields.optional fields "decrypted_type" Json.string?
  let redactedBy ← Fields.optional fields "redacted_by" Json.string?
  let relatesTo ← Fields.optional fields "relates_to" Json.string?
  let relationType ← Fields.optional fields "relation_type" Json.string?
  let localContent ← Fields.optional fields "local_content" LocalContent.ofJson?
  some { rowId, timelineRowId, roomId, eventId, sender, type, stateKey, timestamp, content,
         decrypted, decryptedType, redactedBy, relatesTo, relationType, localContent }

def toJson (e : Event) : Json :=
  .mkSome [
    ("rowid", some (.int e.rowId)),
    ("timeline_rowid", some (.int e.timelineRowId)),
    ("room_id", some (.string e.roomId)),
    ("event_id", some (.string e.eventId)),
    ("sender", some (.string e.sender)),
    ("type", some (.string e.type)),
    ("state_key", e.stateKey.map .string),
    ("timestamp", some (.int e.timestamp)),
    ("content", some e.content),
    ("decrypted", e.decrypted),
    ("decrypted_type", e.decryptedType.map .string),
    ("redacted_by", e.redactedBy.map .string),
    ("relates_to", e.relatesTo.map .string),
    ("relation_type", e.relationType.map .string),
    ("local_content", e.localContent.map LocalContent.toJson)]

end Event

namespace RoomSync

def layout : Layout :=
  ["meta", "timeline", "state", "account_data", "events"].map (·, true)

def ofJson? (v : Json) : Option RoomSync := do
  let fields ← layout.fields? v
  let metadata ← Fields.optional fields "meta" some
  let timeline ← Fields.withDefault fields "timeline" [] Json.array?
  let state ← Fields.withDefault fields "state" ∅ (Json.tableOf some)
  let accountData ← Fields.withDefault fields "account_data" ∅ (Json.tableOf some)
  let events ← Fields.withDefault fields "events" [] (Json.listOf Event.ofJson?)
  some { metadata, timeline, state, accountData, events }

-- What is empty is left out.
def toJson (r : RoomSync) : Json :=
  .mkSome [
    ("meta", r.metadata),
    ("timeline", if r.timeline.isEmpty then none else some (.array r.timeline)),
    ("state", if r.state.isEmpty then none else some (.ofTable r.state)),
    ("account_data", if r.accountData.isEmpty then none else some (.ofTable r.accountData)),
    ("events", if r.events.isEmpty then none else some (.array (r.events.map Event.toJson)))]

end RoomSync

namespace Batch

def layout : Layout := ["rooms", "left_rooms"].map (·, true)

def ofJson? (v : Json) : Option Batch := do
  let fields ← layout.fields? v
  let rooms ← Fields.withDefault fields "rooms" ∅ (Json.tableOf RoomSync.ofJson?)
  let leftRooms ← Fields.withDefault fields "left_rooms" [] Json.strings?
  some { rooms, leftRooms }

def toJson (b : Batch) : Json :=
  .mk [("rooms", .ofTable (b.rooms.map fun _ r => r.toJson)), ("left_rooms", .strings b.leftRooms)]

end Batch

end ChatRelay

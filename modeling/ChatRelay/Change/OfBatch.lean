import ChatRelay.Change.Basic
import ChatRelay.Sync.Batch

namespace ChatRelay

namespace Event

inductive Effect where
  | deletes (id : Option String)
  | upserts (id : Option String)
  | touches
  | nothing

-- A reaction or an edit changes the message that it relates to; all other events stand for
-- themselves.
def upsertTarget? (e : Event) : Option String :=
  if e.effectiveType == EventType.reaction || e.isEdit then e.target? <|> e.id? else e.id?

def effect (e : Event) : Effect :=
  let type := e.effectiveType
  if type == EventType.redaction then .deletes e.target?
  else if e.isRedacted then .deletes e.id?
  else if EventType.isMessageLike type then .upserts e.upsertTarget?
  else if EventType.isChatState type then .touches
  else .nothing

end Event

-- What the events of one room add up to.
structure RoomChanges where
  touched : Bool
  upserted : IdSet := ∅
  deleted : IdSet := ∅

namespace RoomChanges

def insertSome (s : IdSet) : Option String → IdSet
  | none => s
  | some id => s.insert id

def add (c : RoomChanges) (e : Event) : RoomChanges :=
  match e.effect with
  | .deletes id => { c with deleted := insertSome c.deleted id }
  | .upserts id => { c with touched := true, upserted := insertSome c.upserted id }
  | .touches => { c with touched := true }
  | .nothing => c

def ofRoom (r : RoomSync) : RoomChanges := r.events.foldl add { touched := r.changed }

def toChanges (chatId : String) (c : RoomChanges) : List Change :=
  let upserted := c.upserted.diff c.deleted
  (if c.touched then [Change.ofChat .chatUpserted chatId] else [])
    ++ (if upserted.isEmpty then [] else [Change.ofMessages .messageUpserted chatId upserted])
    ++ (if c.deleted.isEmpty then [] else [Change.ofMessages .messageDeleted chatId c.deleted])

end RoomChanges

def Batch.changes (b : Batch) : List Change :=
  (b.leftRooms.filterMap Text.nonBlank?).map (Change.ofChat .chatDeleted)
    ++ b.namedRooms.flatMap fun (chatId, room) => (RoomChanges.ofRoom room).toChanges chatId

end ChatRelay

import ChatRelay.Sync.Batch

namespace ChatRelay

structure Room where
  id : String
  name : Option String
  accountId : String
deriving DecidableEq, Inhabited

-- What batches add up to: the rooms, the events by their identifiers, and the display names of
-- the members of each room.
structure Store where
  -- The user that is logged in; empty if nobody is known.
  ownUserId : String := ""
  rooms : Table Room := ∅
  events : Table Event := ∅
  members : Table (Table String) := ∅
deriving Inhabited

namespace Room

-- A room before anything is known about it.
def unnamed (ownUserId id : String) : Room :=
  { id, name := none, accountId := "matrix_" ++ ownUserId }

-- Takes over what the metadata of a room says.
def describe (r : Room) (metadata : Json) : Room :=
  { r with
    name := metadata.stringAt? ["name"] <|> r.name
    accountId := (metadata.stringAt? ["account_id"]).getD r.accountId }

end Room

namespace Event

-- Whether a member event says that the member is gone.
def endsMembership (e : Event) : Bool :=
  match e.effectiveContent.stringAt? ["membership"] with
  | some membership => membership == "leave" || membership == "ban"
  | none => false

def member? (e : Event) : Option String := e.stateKey.filter (· ≠ "")

def memberName (e : Event) (userId : String) : String :=
  ((e.effectiveContent.stringAt? ["displayname"]).bind Text.nonBlank?).getD userId

-- An event that names no room is of the room that it came with.
def inRoom (e : Event) (roomId : String) : Event :=
  if e.roomId = "" then { e with roomId } else e

end Event

namespace Store

-- Takes a room out with its members and its events.
def leave (s : Store) (roomId : String) : Store :=
  { s with
    rooms := s.rooms.erase roomId
    members := s.members.erase roomId
    events := s.events.filter fun _ e => e.roomId ≠ roomId }

-- The room with this identifier is known from now on, and described by the metadata.
def enter (s : Store) (roomId : String) (metadata : Option Json) : Store :=
  let room := (s.rooms.get? roomId).getD (.unnamed s.ownUserId roomId)
  { s with rooms := s.rooms.insert roomId ((metadata.map room.describe).getD room) }

-- A redaction marks the event that it relates to, if that is stored.
def redact (s : Store) (e : Event) : Store :=
  if e.effectiveType = EventType.redaction then
    match e.target? with
    | some target =>
      { s with events := s.events.modify target fun t => { t with redactedBy := some e.eventId } }
    | none => s
  else s

-- A member event changes the names of the members of its room.
def noteMember (s : Store) (e : Event) : Store :=
  if e.effectiveType = EventType.member then
    match e.member? with
    | some userId =>
      let names := (s.members.get? e.roomId).getD ∅
      let names :=
        if e.endsMembership then names.erase userId else names.insert userId (e.memberName userId)
      { s with members := s.members.insert e.roomId names }
    | none => s
  else s

-- Stores an event under its identifier, if it has one.
def keep (s : Store) (e : Event) : Store :=
  match e.id? with
  | some id => { s with events := s.events.insert id e }
  | none => s

def record (s : Store) (e : Event) : Store := ((s.redact e).noteMember e).keep e

def applyRoom (s : Store) (roomId : String) (room : RoomSync) : Store :=
  (room.events.map (·.inRoom roomId)).foldl record (s.enter roomId room.metadata)

-- Folds a batch into the store: first the rooms that were left, then the others.
def apply (s : Store) (b : Batch) : Store :=
  b.namedRooms.foldl (fun s (roomId, room) => s.applyRoom roomId room)
    ((b.leftRooms.map Text.trim).foldl leave s)

def memberNames (s : Store) (roomId : String) : Table String := (s.members.get? roomId).getD ∅

end Store

end ChatRelay

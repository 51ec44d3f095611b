import ChatRelay.Sync.Event

namespace ChatRelay

structure RoomSync where
  metadata : Option Json := none
  timeline : List Json := []
  state : Table Json := ∅
  accountData : Table Json := ∅
  events : List Event := []
deriving Inhabited

namespace RoomSync

def metadataChanged (r : RoomSync) : Bool :=
  match r.metadata with
  | none | some .null => false
  | some _ => true

def stateChanged (r : RoomSync) : Bool := !r.state.isEmpty

def accountDataChanged (r : RoomSync) : Bool := !r.accountData.isEmpty

def timelineChanged (r : RoomSync) : Bool := !r.timeline.isEmpty

-- Whether the room changed apart from its events.
def changed (r : RoomSync) : Bool :=
  r.metadataChanged || r.stateChanged || r.accountDataChanged || r.timelineChanged

end RoomSync

-- One cycle of synchronisation: what changed in each room, and which rooms were left.
structure Batch where
  rooms : Table RoomSync := ∅
  leftRooms : List String := []
deriving Inhabited

-- The rooms of a batch with their trimmed identifiers, blank ones left out, in the order of the
-- identifiers as they were sent.
def Batch.namedRooms (b : Batch) : List (String × RoomSync) :=
  b.rooms.entries.filterMap fun (key, room) => (Text.nonBlank? key).map (·, room)

end ChatRelay

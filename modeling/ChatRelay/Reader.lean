import ChatRelay.Store.Reactions

namespace ChatRelay

inductive ReadError where
  | notInitialized
  | query (reason : String)
deriving DecidableEq, Inhabited

def ReadError.message : ReadError → String
  | notInitialized => "Chat client is not initialized"
  | query reason => "Store query failed: " ++ reason

-- What can be asked of a chat client's store. Every question can fail on its own; the answers
-- need not be those of one particular store.
structure Reader where
  ownUserId : String
  room : String → Except ReadError (Option Room)
  event : String → Except ReadError (Option Event)
  memberNames : String → Except ReadError (Table String)
  reactions : String → List String → Except ReadError (Table (List Reaction))

def Store.reader (s : Store) : Reader where
  ownUserId := s.ownUserId
  room id := .ok (s.rooms.get? id)
  event id := .ok (s.events.get? id)
  memberNames roomId := .ok (s.memberNames roomId)
  reactions roomId ids := .ok (s.reactions roomId ids)

-- A reader of the store that goes through the events in this order.
def Store.readerAmong (s : Store) (events : List Event) : Reader :=
  { s.reader with reactions := fun roomId ids => .ok (reactionsAmong events roomId ids) }

-- Questions that fail.
structure Outage where
  room : Option ReadError := none
  memberNames : Option ReadError := none
  reactions : Option ReadError := none
  -- The events that cannot be read.
  events : List String := []
deriving Inhabited

namespace Outage

def guard {α : Type} (failure : Option ReadError) (answer : Except ReadError α) :
    Except ReadError α :=
  match failure with
  | some e => .error e
  | none => answer

end Outage

def Reader.during (r : Reader) (outage : Outage) : Reader where
  ownUserId := r.ownUserId
  room id := Outage.guard outage.room (r.room id)
  event id := if id ∈ outage.events then .error (.query "event") else r.event id
  memberNames roomId := Outage.guard outage.memberNames (r.memberNames roomId)
  reactions roomId ids := Outage.guard outage.reactions (r.reactions roomId ids)

end ChatRelay

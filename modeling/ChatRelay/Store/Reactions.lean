import ChatRelay.Message.Render
import ChatRelay.Store.Basic

namespace ChatRelay.Store

-- Whether a stored event is a reaction to another one in a room.
def isReactionTo (roomId target : String) (e : Event) : Bool :=
  e.roomId == roomId && e.effectiveType == EventType.reaction && e.target? == some target

-- The reactions to one event among these, by ascending time. Those of one time stay in their order.
def reactionEvents (events : List Event) (roomId target : String) : List Event :=
  (events.filter (isReactionTo roomId target)).mergeSort fun a b => a.timestamp ≤ b.timestamp

-- The reactions to each of the events; one without any has no entry. The stored events are in a map
-- without an order of its own: this is the answer when they are gone through in the order given.
def reactionsAmong (events : List Event) (roomId : String) (ids : List String) :
    Table (List Reaction) :=
  .ofList (ids.filterMap fun id =>
    match Reaction.collect (reactionEvents events roomId id) with
    | [] => none
    | reactions => some (id, reactions))

-- The answer when they are gone through by their keys.
def reactions (s : Store) (roomId : String) (ids : List String) : Table (List Reaction) :=
  reactionsAmong s.events.values roomId ids

end ChatRelay.Store

import ChatRelay.Change.Fingerprint
import ChatRelay.Connection.Sink
import ChatRelay.Hub.Basic
import ChatRelay.Message.Lookup

namespace ChatRelay

def ChangeMessage.frame (m : ChangeMessage) : Frame := .text m.toJson.compact

namespace Hub

inductive Content where
  -- The messages that it is about are gone or cannot be read.
  | unavailable
  | available (entries : Option (List Json))
deriving Inhabited

-- Looks up the messages that came or changed; nothing else has entries.
def content (lookup : MessageLookup) (c : Change) : Content :=
  match c.kind with
  | .messageUpserted =>
    match lookup c.chatId c.ids.toList with
    | .error _ | .ok [] => .unavailable
    | .ok messages => .available (some (messages.map Message.toJson))
  | _ => .available none

inductive Announcement where
  | unheard
  | unavailable
  | repeated
  | offered (offers : List (ConnectionId × ChangeMessage))
deriving Inhabited

def Announcement.offers : Announcement → List (ConnectionId × ChangeMessage)
  | offered offers => offers
  | _ => []

-- The offers to these connections, each under the connection's next number.
def offersTo (targets : List ConnectionId) (c : Change) (time : Int) (entries : Option (List Json))
    (h : Hub) : List (ConnectionId × ChangeMessage) :=
  targets.map fun id =>
    (id, { change := c, sequence := h.sequences.current id + 1, time, entries })

-- Announces a change at a moment of the hub's clock. The time is what the messages say.
def announce (lookup : MessageLookup) (now : Nat) (time : Int) (c : Change) (h : Hub) :
    Hub × Announcement :=
  match h.registry.matching c.chatId with
  | [] => (h, .unheard)
  | targets =>
    match content lookup c with
    | .unavailable => (h, .unavailable)
    | .available entries =>
      match h.sightings.sight h.settings.sightings now (c.fingerprint (entries.getD [])) with
      | (sightings, true) => ({ h with sightings, suppressed := h.suppressed + 1 }, .repeated)
      | (sightings, false) =>
        ({ h with sightings, sequences := targets.foldl Sequences.advance h.sequences },
          .offered (h.offersTo targets c time entries))

def noteDelivery (h : Hub) : Hub := { h with delivered := h.delivered + 1 }

-- Settles the outcomes of one round of writes, and answers which connections have to be closed.
-- Only what delivers a change is counted.
def settle (counted : Bool) (h : Hub) :
    List (ConnectionId × Except WriteError Unit) → Hub × List ConnectionId
  | [] => (h, [])
  | (_, .ok ()) :: rest => settle counted (if counted then h.noteDelivery else h) rest
  | (id, .error _) :: rest =>
    match h.drop id with
    | (h, true) => let (h, closed) := settle counted h rest; (h, id :: closed)
    | (h, false) => settle counted h rest

-- One round of writes without anything in between, and the connections that have to be closed.
def round (write : ConnectionId → Frame → Except WriteError Unit) (counted : Bool)
    (offers : List (ConnectionId × Frame)) (h : Hub) : Hub × List ConnectionId :=
  h.settle counted (offers.map fun (id, frame) => (id, write id frame))

def Announcement.frames (a : Announcement) : List (ConnectionId × Frame) :=
  a.offers.map fun (id, m) => (id, m.frame)

-- What came of a change: the announcement, and the connections that have to be closed.
structure Dispatched where
  announcement : Announcement
  closed : List ConnectionId

-- Announces a change and makes its writes without anything in between.
def dispatch (lookup : MessageLookup) (now : Nat) (time : Int)
    (write : ConnectionId → Frame → Except WriteError Unit) (c : Change) (h : Hub) :
    Hub × Dispatched :=
  let (h, announcement) := h.announce lookup now time c
  let (h, closed) := h.round write true announcement.frames
  (h, { announcement, closed })

def pings (h : Hub) : List (ConnectionId × Frame) := h.registry.ids.map (·, .ping)

-- Pings every connection, without anything in between.
def keepalive (write : ConnectionId → Frame → Except WriteError Unit) (h : Hub) :
    Hub × List ConnectionId :=
  h.round write false h.pings

end Hub

end ChatRelay

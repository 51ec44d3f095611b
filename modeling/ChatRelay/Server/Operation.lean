import ChatRelay.Http.Route
import ChatRelay.Server.Conversing
import ChatRelay.Server.Dispatching

namespace ChatRelay.Server

-- Starts the hub on first use, and with it the dispatcher, unless there can be no queue for its
-- batches.
def start? (s : Server) : Option (Server × Except HubError Unit) :=
  (s.hub.ensureStarted? s.host () s.source).map fun (hub, source, outcome) =>
    let starts := hub.isRunning && !s.hub.isRunning
    let s := { s with hub, source }
    (if starts then (s.setStage .fresh).wake .dispatcher else s, outcome)

-- Adds a connection and answers its identifier, which is a new one.
def add (s : Server) (conversation : Option Conversation) : Server × ConnectionId :=
  let id : ConnectionId := ⟨s.connections.length⟩
  ({ s with connections := s.connections ++ [{ id, conversation }] }, id)

-- Adds a connection without a session, and registers it.
def attach (s : Server) : Server × ConnectionId :=
  let (s, id) := s.add none
  ({ s with hub := s.hub.register id }, id)

-- Accepts a request as a connection, or answers why not. There is no answer where the hub cannot
-- be started.
def accept? (access : Http.Access) (r : Http.Request) (s : Server) :
    Option (Server × Except Http.Response ConnectionId) :=
  match r.refuse? access with
  | some response => some (s, .error response)
  | none =>
    s.start?.map fun
      | (s, .error e) => (s, .error e.fault.response)
      | (s, .ok ()) =>
        let (s, id) := s.add (some {})
        (s.wake (.session id), .ok id)

def sequence (s : Server) (id : ConnectionId) : Nat := s.hub.sequences.current id

def subscription? (s : Server) (id : ConnectionId) : Option Subscription :=
  s.hub.registry.subscription? id

-- Replaces a subscription and answers whether the connection is registered.
def setSubscription (s : Server) (id : ConnectionId) (subscription : Subscription) :
    Server × Bool :=
  let (hub, isRegistered) := s.hub.setSubscription id subscription
  ({ s with hub }, isRegistered)

-- Closes a connection that is out of the hub; nobody waits for it.
def close (s : Server) (id : ConnectionId) : Server := (s.write .nobody id .close).1

def disconnect (s : Server) (id : ConnectionId) : Server :=
  match s.hub.drop id with
  | (hub, true) => { s with hub }.close id
  | (hub, false) => { s with hub }

def size : Inbound → Nat
  | .text content => content.utf8ByteSize
  | .binary content => content.length
  | .ping _ | .pong _ | .close | .failure => 0

-- Something comes in on a connection. A message that is too long cannot be read.
def hear (s : Server) (id : ConnectionId) (m : Inbound) : Server :=
  let m := if size m ≤ s.maxMessageBytes then m else .failure
  (s.modify id fun c =>
    { c with conversation := c.conversation.map fun conversation =>
        { conversation with inbox := conversation.inbox ++ [m] } }).wake (.session id)

-- The client of a connection is gone without a word.
def lose (s : Server) (id : ConnectionId) : Server :=
  (s.sever id).hear id .failure

-- Folds the batch of a client event into the store.
def record (s : Server) (e : ClientEvent) : Server :=
  match e.batch? with
  | some b => { s with store := s.store.apply b }
  | none => s

-- Takes notice of a client event, and gives the dispatcher a turn if there is a batch for it.
def receive (s : Server) (e : ClientEvent) : Server :=
  let hub := s.hub.receive e
  if s.hub.intake.received < hub.intake.received then { s with hub }.wake .dispatcher
  else { s with hub }

def publish (s : Server) (e : ClientEvent) : Server × Nat :=
  s.source.publish (fun _ s => s.receive e) s

-- Moves the clock in one go; nobody has a turn meanwhile. Writes whose time is up end, the one that
-- was to end first before the others.
def advance (s : Server) (millis : Nat) : Server :=
  let s := { s with now := s.now + millis }
  let overdue := s.connections.filterMap fun c =>
    c.line.stalled.bind fun (_, due) => if due ≤ s.now then some (due, c.id) else none
  let s := (overdue.mergeSort fun a b => a.1 ≤ b.1).foldl
    (fun s (_, id) => s.onLine id (·.expire s.now)) s
  s.wake .dispatcher

-- Ends the dispatcher, releases the source and closes every connection.
def shutdown (s : Server) : Server :=
  let s := s.connections.foldl (fun s c => s.onLine c.id (·.abandon s.now .dispatch)) s
  let (hub, source, ids) := s.hub.shutdown s.source
  ids.foldl close { s with hub, source, dispatcher := {} }

def turn (s : Server) : Worker → Server
  | .dispatcher => s.dispatcherTurn
  | .session id => s.sessionTurn id

-- Gives a turn to every worker that waits for one; what is left to happen then needs input or
-- time. No turn gives a turn to another worker, as a line gets free by time alone.
def settle (s : Server) : Server := s.turns.foldl turn { s with turns := [] }

-- When something is due by itself: the end of a write that stalls, or a round of pings.
def nextDue? (s : Server) : Option Nat :=
  let writes := s.connections.filterMap fun c => c.line.stalled.map (·.2)
  (if s.dispatcher.stage.isIdle then s.dispatcher.ticker.due :: writes else writes).min?

-- Moves the clock up to a moment, and stops at every moment at which something is due.
def runUntil (moment : Nat) (s : Server) : Nat → Server
  | 0 => s.advance (moment - s.now)
  | room + 1 =>
    match s.nextDue?.filter (· ≤ moment) with
    | some due => (s.advance (due - s.now)).settle.runUntil moment room
    | none => s.advance (moment - s.now)

-- Lets time pass while everybody works. The clock moves with every stop, which bounds their number.
def run (s : Server) (millis : Nat) : Server :=
  s.settle.runUntil (s.now + millis) millis

-- What reached the clients since this was last asked for.
def collect (s : Server) : Server × List (ConnectionId × Sent) := ({ s with sent := [] }, s.sent)

end ChatRelay.Server

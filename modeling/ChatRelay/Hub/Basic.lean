import ChatRelay.Change.OfBatch
import ChatRelay.Connection.Registry
import ChatRelay.Host
import ChatRelay.Hub.Error
import ChatRelay.Hub.Intake
import ChatRelay.Hub.Settings

namespace ChatRelay

-- The hub takes batches from the source and announces their changes to the connections that want
-- to hear about them.
structure Hub where
  settings : HubSettings := {}
  registry : Registry := ∅
  -- Counters of connections; they outlast the registration.
  sequences : Sequences := {}
  sightings : Sightings := {}
  intake : Intake := {}
  -- The changes of the batch taken last that are still to be announced.
  pending : List Change := []
  delivered : Nat := 0
  suppressed : Nat := 0
  -- The outcome of the only attempt to subscribe.
  startup : Option (Except HubError Unit) := none
  -- The handle at the source, while the hub runs.
  handle : Option Nat := none
  isShutDown : Bool := false
deriving Inhabited

namespace Hub

variable {κ : Type}

-- A hub runs from a successful start until it is shut down.
def isRunning (h : Hub) : Bool := h.handle.isSome

-- Whether the next attempt to start the hub is the only one that counts.
def isUntried (h : Hub) : Bool := !h.isShutDown && h.startup.isNone

-- Makes the only attempt to subscribe.
def launch (subscriber : κ) (h : Hub) (s : Source κ) : Hub × Source κ × Except HubError Unit :=
  match s.subscribe subscriber with
  | (s, .error e) =>
    ({ h with startup := some (.error (.subscribe e)) }, s, .error (.subscribe e))
  | (s, .ok handle) =>
    ({ h with startup := some (.ok ()), handle := some handle, intake := h.intake.opened }, s,
      .ok ())

-- Subscribes on first use; every later call has the outcome of the first one. Whoever comes first
-- asks the host for the queue before anything else, and goes no further if there can be none.
def ensureStarted? (host : Host) (subscriber : κ) (h : Hub) (s : Source κ) :
    Option (Hub × Source κ × Except HubError Unit) :=
  if h.isShutDown then some (h, s, .error .shutDown)
  else
    match h.startup with
    | some outcome => some (h, s, outcome)
    | none =>
      if host.hasRoom h.settings.queueCapacity then some (h.launch subscriber s) else none

-- Stops for good, and answers the connections that have to be closed.
def shutdown (h : Hub) (s : Source κ) : Hub × Source κ × List ConnectionId :=
  ({ h with
    isShutDown := true
    handle := none
    intake := h.intake.closed
    pending := []
    registry := ∅ },
    match h.handle with
    | some handle => s.release handle
    | none => s,
    h.registry.ids)

-- Takes notice of a client event; only batches matter.
def receive (e : ClientEvent) (h : Hub) : Hub :=
  match e.batch? with
  | some b => { h with intake := h.intake.offer h.settings.queueCapacity b }
  | none => h

-- Turns to the oldest batch that waits.
def nextBatch? (h : Hub) : Option Hub :=
  h.intake.next?.map fun (b, intake) => { h with intake, pending := b.changes }

def register (id : ConnectionId) (h : Hub) : Hub := { h with registry := h.registry.register id }

-- Replaces a subscription and answers whether the connection is registered.
def setSubscription (id : ConnectionId) (s : Subscription) (h : Hub) : Hub × Bool :=
  ({ h with registry := h.registry.setSubscription id s }, h.registry.contains id)

-- Takes a connection out and answers whether it was registered. Whoever takes it out has to
-- close it, so that this is done once.
def drop (id : ConnectionId) (h : Hub) : Hub × Bool :=
  ({ h with registry := h.registry.unregister id }, h.registry.contains id)

end Hub

end ChatRelay

import ChatRelay.Sync.ClientEvent

namespace ChatRelay

inductive SourceError where
  | notInitialized
  | rejected (reason : String)
deriving DecidableEq, Inhabited

def SourceError.message : SourceError → String
  | notInitialized => "Chat client is not initialized"
  | rejected reason => "Chat client rejected subscription: " ++ reason

-- A source whose subscribers are known by values of type `κ`. Whatever is published is handed at
-- once to everyone who is subscribed; a subscription lasts until its handle is released.
structure Source (κ : Type) where
  -- The subscribers by their handles, in the order in which they came.
  subscribers : List (Nat × κ) := []
  nextHandle : Nat := 0
  attempts : Nat := 0
  -- Once this is set nobody can subscribe.
  failure : Option SourceError := none
deriving Inhabited

namespace Source

variable {κ σ : Type}

def failWith (s : Source κ) (e : SourceError) : Source κ := { s with failure := some e }

-- Adds a subscriber and answers its handle.
def subscribe (s : Source κ) (subscriber : κ) : Source κ × Except SourceError Nat :=
  let s := { s with attempts := s.attempts + 1 }
  match s.failure with
  | some e => (s, .error e)
  | none =>
    ({ s with
      subscribers := s.subscribers ++ [(s.nextHandle, subscriber)]
      nextHandle := s.nextHandle + 1 }, .ok s.nextHandle)

-- Takes out the subscriber of the handle; a handle that was released before does nothing.
def release (s : Source κ) (handle : Nat) : Source κ :=
  { s with subscribers := s.subscribers.filter (·.1 ≠ handle) }

def size (s : Source κ) : Nat := s.subscribers.length

-- Calls everyone who is subscribed now and answers how many these are. A call may change
-- anything, the source included, but not whom this publication reaches.
def publish (s : Source κ) (call : Nat × κ → σ → σ) (state : σ) : σ × Nat :=
  (s.subscribers.foldl (fun state subscriber => call subscriber state) state, s.size)

-- What a subscriber is given to end its subscription: the handle until it is released.
structure Hold where
  handle : Option Nat
deriving DecidableEq, Inhabited

namespace Hold

-- Releases the handle unless this was done before.
def cancel (hold : Hold) (s : Source κ) : Hold × Source κ :=
  match hold.handle with
  | some handle => ({ handle := none }, s.release handle)
  | none => (hold, s)

-- Somebody lets go of the hold.
def drop (hold : Hold) (s : Source κ) : Hold × Source κ := hold.cancel s

-- Releases the handle on request. Nobody keeps the hold afterwards.
def unsubscribe (hold : Hold) (s : Source κ) : Hold × Source κ :=
  let (hold, s) := hold.cancel s
  hold.drop s

end Hold

end Source

end ChatRelay

import ChatRelay.Change.Sightings

namespace ChatRelay

-- Spans of time are in milliseconds.
structure HubSettings where
  queueCapacity : Nat := 512
  keepalive : Nat := 30000
  pingTimeout : Nat := 5000
  writeTimeout : Nat := 5000
  sightings : SightingLimits := {}
deriving DecidableEq, Inhabited

end ChatRelay

import ChatRelay.Table

namespace ChatRelay

structure SightingLimits where
  debounce : Nat := 250
  retention : Nat := 30000
  pruneInterval : Nat := 5000
deriving DecidableEq, Inhabited

-- Fingerprints that were sighted lately, with the time of the latest sighting. Times are in
-- milliseconds on the caller's clock; a difference to a later time is zero.
structure Sightings where
  latest : Table Nat := ∅
  lastPruned : Option Nat := none
deriving Inhabited

namespace Sightings

-- Forgets what is too old, unless this was done a short while ago.
def prune (limits : SightingLimits) (now : Nat) (s : Sightings) : Sightings :=
  if s.lastPruned.any (now - · < limits.pruneInterval) then s
  else
    { latest := s.latest.filter fun _ sighted => now - sighted ≤ limits.retention
      lastPruned := some now }

-- Whether the fingerprint was sighted less than the debounce time ago.
def isRepeat (limits : SightingLimits) (now : Nat) (s : Sightings) (fingerprint : String) : Bool :=
  (s.latest.get? fingerprint).any (now - · < limits.debounce)

-- Takes a sighting down and answers whether it is a repeat.
def sight (limits : SightingLimits) (now : Nat) (s : Sightings) (fingerprint : String) :
    Sightings × Bool :=
  (prune limits now { s with latest := s.latest.insert fingerprint now },
    isRepeat limits now s fingerprint)

def size (s : Sightings) : Nat := s.latest.size

end Sightings

end ChatRelay

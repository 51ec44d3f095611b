import ChatRelay.Hub.Ticker

namespace ChatRelay

-- The clock of a machine, for a server that counts milliseconds of its own.
structure Clock where
  -- What the clock shows at the server's moment zero, in nanoseconds.
  origin : Nat := 0
  -- Where the count of seconds ends.
  lastSecond : Nat := 0x7FFF_FFFF_FFFF_FFFF
deriving DecidableEq, Inhabited

-- The second that the clock shows at a moment of the server.
def Clock.secondAt (c : Clock) (moment : Nat) : Nat :=
  (c.origin + moment * 1000000) / 1000000000

-- Whoever asks for something that the host does not have goes no further.
structure Host where
  -- Whether there can be a queue with so much room.
  hasRoom : Nat → Bool
  -- The moment that comes so long after another one.
  later? : Nat → Nat → Option Nat
  -- A ticker with its first round at a moment.
  ticker? : Nat → Nat → Option Ticker

namespace Host

-- The count of the room shares a word of the machine with three bits.
def greatestRoom : Nat := 0xFFFF_FFFF_FFFF_FFFF >>> 3

def ofClock (clock : Clock) : Host where
  hasRoom room := 0 < room && room ≤ greatestRoom
  later? moment span :=
    if clock.secondAt (moment + span) ≤ clock.lastSecond then some (moment + span) else none
  ticker? due period := if period = 0 then none else some { period, due }

-- A ticker with its first round a period from now.
def firstTicker? (host : Host) (now period : Nat) : Option Ticker := do
  let due ← host.later? now period
  host.ticker? due period

instance : Inhabited Host := ⟨ofClock {}⟩

end Host

end ChatRelay

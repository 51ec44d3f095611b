import ChatRelay.Host

namespace ChatRelay

theorem Clock.secondAt_add (c : Clock) (moment seconds : Nat) :
    c.secondAt (moment + seconds * 1000) = c.secondAt moment + seconds := by
  unfold secondAt
  omega

namespace Host

-- What is documented of the hosts with such a clock.
structure Serves (host : Host) (clock : Clock) : Prop where
  hasRoom_iff : ∀ room, host.hasRoom room = true ↔ 0 < room ∧ room ≤ greatestRoom
  later?_eq : ∀ moment span, host.later? moment span =
    if clock.secondAt (moment + span) ≤ clock.lastSecond then some (moment + span) else none
  ticker?_eq : ∀ due period, host.ticker? due period =
    if period = 0 then none else some { period, due }

theorem ofClock_serves (clock : Clock) : (ofClock clock).Serves clock where
  hasRoom_iff room := by simp [ofClock]
  later?_eq moment span := rfl
  ticker?_eq due period := rfl

-- There are pings if there is a period for them and the clock reaches the end of the first one.
theorem Serves.isSome_firstTicker?_iff {host : Host} {clock : Clock} (hhost : host.Serves clock)
    {now period : Nat} :
    (host.firstTicker? now period).isSome = true ↔
      0 < period ∧ clock.secondAt (now + period) ≤ clock.lastSecond := by
  have hticker : host.firstTicker? now period =
    (host.later? now period).bind (host.ticker? · period) := rfl
  rw [hticker, hhost.later?_eq]
  by_cases hreached : clock.secondAt (now + period) ≤ clock.lastSecond
  · by_cases hperiod : period = 0
    · simp [hhost.ticker?_eq, hperiod]
    · simp [hhost.ticker?_eq, hperiod, hreached, Nat.pos_of_ne_zero]
  · simp [hreached]

end Host

end ChatRelay

import ChatRelay.Config.Validity
import ChatRelay.Proofs.Server.Startup

namespace ChatRelay

theorem Config.Realtime.check_eq_ok_iff {r : Realtime} :
    r.check = .ok () ↔
      (∀ setting ∈ r.positives, 0 < setting.2) ∧ r.debounceMillis < r.retentionSeconds * 1000 := by
  unfold check
  cases hzero : r.positives.find? (·.2 = 0) with
  | some setting =>
    have hmem := List.mem_of_find?_eq_some hzero
    have heq : setting.2 = 0 := by simpa using List.find?_some hzero
    constructor
    · intro h
      cases h
    · intro h
      exact absurd (h.1 setting hmem) (by omega)
  | none =>
    have hpositive : ∀ setting ∈ r.positives, 0 < setting.2 := fun setting hmem =>
      Nat.pos_of_ne_zero (by simpa using List.find?_eq_none.mp hzero setting hmem)
    by_cases htooLong : r.retentionSeconds * 1000 ≤ r.debounceMillis
    · simp [htooLong]
    · simp only [htooLong, if_false, true_iff]
      exact ⟨hpositive, Nat.lt_of_not_le htooLong⟩

theorem Config.realtime_check_of_check {c : Config} (hvalid : c.check = .ok ()) :
    c.realtime.check = .ok () := by
  cases hserver : c.server.check with
  | error defect => simp [check, hserver, bind, Except.bind] at hvalid
  | ok _ =>
    cases hcredentials : c.credentials.check c.server.deployment with
    | error defect => simp [check, hserver, hcredentials, bind, Except.bind] at hvalid
    | ok _ => simpa [check, hserver, hcredentials, bind, Except.bind] using hvalid

namespace Config

variable {c : Config} {clock : Clock} {host : Host}

theorem ticker?_isSome_iff {s : ChatRelay.Server} (hhost : s.host.Serves clock)
    (hsettings : s.hub.settings = c.hubSettings) (hkeepalive : 0 < c.realtime.keepaliveSeconds) :
    s.ticker?.isSome = true ↔
      clock.secondAt s.now + c.realtime.keepaliveSeconds ≤ clock.lastSecond := by
  have hperiod : s.hub.settings.keepalive = c.realtime.keepaliveSeconds * 1000 :=
    congrArg HubSettings.keepalive hsettings
  rw [ChatRelay.Server.ticker?, hhost.isSome_firstTicker?_iff, hperiod, clock.secondAt_add]
  constructor
  · exact And.right
  · intro hreached
    exact ⟨by omega, hreached⟩

-- A server with the settings of a valid configuration can be started exactly if the queue is not
-- too large for the host, and it stays up in the first turn of the dispatcher exactly if the clock
-- goes on until the first round of pings. The lower bounds, and a debounce that is shorter than the
-- retention, come with the validity.
theorem accepted_starts_iff (hhost : host.Serves clock) (hvalid : c.check = .ok ()) :
    0 < c.hubSettings.queueCapacity ∧ 0 < c.hubSettings.keepalive ∧
    c.hubSettings.sightings.debounce < c.hubSettings.sightings.retention ∧
    ∀ s : ChatRelay.Server, s.host = host → s.hub.settings = c.hubSettings →
      (s.start? = none ↔
        s.hub.isUntried = true ∧ Host.greatestRoom < c.hubSettings.queueCapacity) ∧
      (s.hub.isUntried = true → s.hub.isRunning = false → s.source.failure = none →
        ((∃ next, s.start? = some (next, .ok ()) ∧ s.Starts next) ↔
          c.hubSettings.queueCapacity ≤ Host.greatestRoom)) ∧
      (s.IsUp → s.dispatcher.stage = .fresh →
        (s.dispatcherTurn.IsUp ↔
          clock.secondAt s.now + c.realtime.keepaliveSeconds ≤ clock.lastSecond)) := by
  obtain ⟨hpositive, hdebounce⟩ :=
    Realtime.check_eq_ok_iff.mp (realtime_check_of_check hvalid)
  have hcapacity : 0 < c.realtime.queueCapacity :=
    hpositive ("REALTIME__EVENT_QUEUE_CAPACITY", c.realtime.queueCapacity)
      (by simp [Realtime.positives])
  have hkeepalive : 0 < c.realtime.keepaliveSeconds :=
    hpositive ("REALTIME__KEEPALIVE_INTERVAL_SECS", c.realtime.keepaliveSeconds)
      (by simp [Realtime.positives])
  refine ⟨hcapacity, Nat.mul_pos hkeepalive (by decide), hdebounce, ?_⟩
  -- The lower bounds leave one bound for the queue, and one for the pings.
  rintro s rfl hsettings
  refine ⟨?_, ?_, ?_⟩
  · rw [ChatRelay.Server.start?_eq_none_iff hhost, hsettings]
    have hroom : 0 < c.hubSettings.queueCapacity := hcapacity
    simp [hroom]
  · intro huntried hstopped hsource
    rw [ChatRelay.Server.exists_starts_iff hhost huntried hstopped hsource, hsettings]
    exact and_iff_right hcapacity
  · intro hup hfresh
    rw [hup.dispatcherTurn_iff, forall_prop_of_true hfresh]
    exact ticker?_isSome_iff hhost hsettings hkeepalive

-- The server of a configuration before anything has happened.
def untried (c : Config) (now : Nat) : ChatRelay.Server :=
  { hub := { settings := c.hubSettings }, now }

theorem eq_ok_of_isOk {x : Except Defect Unit} (h : x.isOk = true) : x = .ok () := by
  cases x with
  | error defect => cases h
  | ok _ => rfl

-- The largest queue that there can be, and pings in the last second of the clock.
def utmost : Config where
  realtime := { queueCapacity := Host.greatestRoom, keepaliveSeconds := 0x7FFF_FFFF_FFFF_FFFF }

-- It is up if it is started at once, and its dispatcher ends if it is started a second later.
theorem utmost_starts_at_once :
    ((Host.ofClock {}).Serves {} ∧ utmost.check = .ok ()) ∧
      (∃ next, (utmost.untried 0).start? = some (next, .ok ()) ∧ next.dispatcherTurn.IsUp) ∧
      ∃ next, (utmost.untried 1000).start? = some (next, .ok ()) ∧ ¬next.dispatcherTurn.IsUp := by
  have hserves := Host.ofClock_serves {}
  have hvalid : utmost.check = .ok () := eq_ok_of_isOk (by decide +kernel)
  obtain ⟨-, -, -, hservers⟩ := accepted_starts_iff hserves hvalid
  have hstarted (now : Nat) : ∃ next, (utmost.untried now).start? = some (next, .ok ()) ∧
      (next.dispatcherTurn.IsUp ↔
        Clock.secondAt {} now + utmost.realtime.keepaliveSeconds ≤ Clock.lastSecond {}) := by
    obtain ⟨-, hstarts, -⟩ := hservers (utmost.untried now) rfl rfl
    obtain ⟨next, hstart, hnext⟩ := (hstarts rfl rfl rfl).mpr (by decide)
    obtain ⟨-, -, hturn⟩ := hservers next hnext.host_eq hnext.settings_eq
    have hup := hturn hnext.isUp hnext.isFresh
    rw [hnext.now_eq] at hup
    exact ⟨next, hstart, hup⟩
  obtain ⟨first, hfirst, hup⟩ := hstarted 0
  obtain ⟨second, hsecond, hdown⟩ := hstarted 1000
  exact ⟨⟨hserves, hvalid⟩, ⟨first, hfirst, hup.mpr (by decide)⟩,
    ⟨second, hsecond, fun h => absurd (hdown.mp h) (by decide)⟩⟩

-- The greatest number that can be written, for the queue or for the pings.
def greatestQueue : Config where
  realtime := { queueCapacity := greatest64 }

def greatestKeepalive : Config where
  realtime := { keepaliveSeconds := greatest64 }

-- Both are loaded and valid. The one server cannot be started. The other one starts, and then it
-- has no dispatcher and takes nothing in, while its hub counts as running.
theorem valid_server_can_fail :
    (load? (.ofEnvironment
        [("BEEPER_API__REALTIME__EVENT_QUEUE_CAPACITY", "18446744073709551615")]) =
        some greatestQueue ∧
      greatestQueue.check = .ok () ∧ (greatestQueue.untried 0).start? = none) ∧
    (load? (.ofEnvironment
        [("BEEPER_API__REALTIME__KEEPALIVE_INTERVAL_SECS", "18446744073709551615")]) =
        some greatestKeepalive ∧
      greatestKeepalive.check = .ok () ∧
      ∃ next, (greatestKeepalive.untried 0).start? = some (next, .ok ()) ∧ next.IsUp ∧
        next.dispatcherTurn.dispatcher.stage.isPresent = false ∧
        next.dispatcherTurn.hub.intake.isOpen = false ∧
        next.dispatcherTurn.hub.isRunning = true) := by
  have hserves := Host.ofClock_serves {}
  have hqueue : greatestQueue.check = .ok () := eq_ok_of_isOk (by decide +kernel)
  have hkeepalive : greatestKeepalive.check = .ok () := eq_ok_of_isOk (by decide +kernel)
  refine ⟨⟨by decide +kernel, hqueue, rfl⟩, ⟨by decide +kernel, hkeepalive, ?_⟩⟩
  obtain ⟨next, hstart, hnext⟩ :=
    (@ChatRelay.Server.exists_starts_iff (greatestKeepalive.untried 0) {} hserves rfl rfl rfl).mpr
      (by decide)
  have hticker : next.ticker? = none := by
    have hperiod : next.hub.settings.keepalive = greatestKeepalive.hubSettings.keepalive :=
      congrArg HubSettings.keepalive hnext.settings_eq
    simp only [ChatRelay.Server.ticker?, hnext.host_eq, hnext.now_eq, hperiod]
    rfl
  have hturn : next.dispatcherTurn =
      { next with hub := { next.hub with intake := next.hub.intake.closed }, dispatcher := {} } := by
    simp only [ChatRelay.Server.dispatcherTurn, hnext.isFresh,
      ChatRelay.Server.beginDispatch_of_no_ticker hticker]
  exact ⟨next, hstart, hnext.isUp, by rw [hturn]; exact ⟨rfl, rfl, hnext.isUp.isRunning⟩⟩

end Config

end ChatRelay

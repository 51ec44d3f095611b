import ChatRelay.Proofs.Host
import ChatRelay.Proofs.Server.Rounds

namespace ChatRelay

-- Only a hub that was never tried can fail to be started.
theorem Hub.ensureStarted?_eq_none_iff {κ : Type} {host : Host} {subscriber : κ} {h : Hub}
    {source : Source κ} :
    h.ensureStarted? host subscriber source = none ↔
      h.isUntried = true ∧ ¬host.hasRoom h.settings.queueCapacity = true := by
  unfold ensureStarted? isUntried
  cases h.isShutDown with
  | true => simp
  | false => cases h.startup <;> simp

def Dispatcher.Stage.isPresent : Stage → Bool
  | absent => false
  | fresh | idle | writing .. | closing .. | settling .. => true

namespace Server

variable {s : Server} {clock : Clock}

-- Its hub runs and takes batches in, and there is a dispatcher.
structure IsUp (s : Server) : Prop where
  isRunning : s.hub.isRunning = true
  isOpen : s.hub.intake.isOpen = true
  isPresent : s.dispatcher.stage.isPresent = true

theorem IsUp.settleRound (hs : s.IsUp) (counted : Bool)
    (outcomes : List (ConnectionId × Except WriteError Unit)) :
    (s.settleRound counted outcomes).IsUp := by
  induction outcomes generalizing s with
  | nil => exact ⟨hs.isRunning, hs.isOpen, rfl⟩
  | cons outcome rest ih =>
    obtain ⟨id, result⟩ := outcome
    cases result with
    | ok u =>
      rw [Server.settleRound]
      cases counted with
      | false => exact ih hs
      | true => exact ih ⟨hs.isRunning, hs.isOpen, hs.isPresent⟩
    | error e =>
      have hdrop : s.hub.drop id = ({ s.hub with registry := s.hub.registry.unregister id },
        s.hub.registry.contains id) := rfl
      rw [Server.settleRound, hdrop]
      cases s.hub.registry.contains id with
      | false => exact ih ⟨hs.isRunning, hs.isOpen, hs.isPresent⟩
      | true =>
        obtain ⟨connections, sent, outcome, hwrite⟩ := write_eq
          { s with hub := { s.hub with registry := s.hub.registry.unregister id } }
          .dispatch id .close
        simp only [hwrite]
        cases outcome with
        -- The connection is not closed at once, and the round stops here.
        | none => exact ⟨hs.isRunning, hs.isOpen, rfl⟩
        | some result => exact ih ⟨hs.isRunning, hs.isOpen, hs.isPresent⟩

theorem IsUp.settleIfOver (hs : s.IsUp) (counted : Bool)
    (round : List (ConnectionId × Option (Except WriteError Unit))) :
    (s.settleIfOver counted round).IsUp := by
  unfold Server.settleIfOver
  split
  · exact hs.settleRound counted _
  · exact ⟨hs.isRunning, hs.isOpen, rfl⟩

theorem IsUp.makeRound (hs : s.IsUp) (counted : Bool) (offers : List (ConnectionId × Frame)) :
    (s.makeRound counted offers).IsUp := by
  obtain ⟨connections, sent, round, hbegin, -⟩ := s.beginWrites_eq offers
  have hbegun : IsUp { s with connections, sent } := ⟨hs.isRunning, hs.isOpen, hs.isPresent⟩
  simp only [Server.makeRound, hbegin]
  exact hbegun.settleIfOver counted round

theorem IsUp.announce (hs : s.IsUp) (c : Change) : (s.announce c).IsUp := by
  let d : Hub.Dispatch :=
    { hub := s.hub, change := c
      occasion := { lookup := s.lookup, now := s.now, time := s.now, write := fun _ _ => .ok () } }
  have hannounce : s.hub.announce s.lookup s.now s.now c = (d.announced, d.announcement) :=
    d.announce_eq
  have hannounced : IsUp { s with hub := d.announced } :=
    ⟨hs.isRunning, hs.isOpen, hs.isPresent⟩
  simp only [Server.announce, hannounce]
  exact hannounced.makeRound true _

theorem IsUp.announceAll (hs : s.IsUp) (cs : List Change) : (s.announceAll cs).IsUp := by
  induction cs generalizing s with
  | nil => exact hs
  | cons c rest ih =>
    have hannounced := hs.announce c
    rw [Server.announceAll]
    split
    · exact ih hannounced
    · exact ⟨hannounced.isRunning, hannounced.isOpen, hannounced.isPresent⟩

theorem IsUp.announcePending (hs : s.IsUp) : s.announcePending.IsUp := by
  have htaken : IsUp { s with hub := { s.hub with pending := [] } } :=
    ⟨hs.isRunning, hs.isOpen, hs.isPresent⟩
  exact htaken.announceAll s.hub.pending

theorem IsUp.ping (hs : s.IsUp) : s.ping.IsUp := by
  have hticked : IsUp
      { s with dispatcher := { s.dispatcher with ticker := s.dispatcher.ticker.next s.now } } :=
    ⟨hs.isRunning, hs.isOpen, hs.isPresent⟩
  exact hticked.makeRound false s.hub.pings

theorem IsUp.nextBatch (hs : s.IsUp) {hub : Hub} (hnext : s.hub.nextBatch? = some hub) :
    IsUp { s with hub } := by
  obtain ⟨⟨b, intake⟩, htaken, rfl⟩ := Option.map_eq_some_iff.mp hnext
  have hopen : intake.isOpen = s.hub.intake.isOpen := by
    unfold Intake.next? at htaken
    split at htaken
    · cases htaken
    · obtain ⟨-, rfl⟩ := Prod.mk.inj (Option.some.inj htaken)
      rfl
  exact ⟨hs.isRunning, hopen.trans hs.isOpen, hs.isPresent⟩

theorem IsUp.work (hs : s.IsUp) (room : Nat) : (s.work room).IsUp := by
  induction room generalizing s with
  | zero => exact hs
  | succ room ih =>
    rw [Server.work]
    split
    · exact hs
    · split
      · next hub hnext => exact ih (hs.nextBatch hnext).announcePending
      · split
        · exact ih hs.ping
        · exact hs

theorem IsUp.proceed (hs : s.IsUp) : s.proceed.IsUp := by
  rw [Server.proceed]
  split
  · exact hs.announcePending.work _
  · exact hs

theorem beginDispatch_of_no_ticker (hticker : s.ticker? = none) :
    s.beginDispatch =
      { s with hub := { s.hub with intake := s.hub.intake.closed }, dispatcher := {} } := by
  simp only [beginDispatch, hticker]

theorem IsUp.beginDispatch_iff (hs : s.IsUp) :
    s.beginDispatch.IsUp ↔ s.ticker?.isSome = true := by
  cases hticker : s.ticker? with
  | none =>
    rw [beginDispatch_of_no_ticker hticker]
    constructor
    · intro hup
      cases hup.isPresent
    · intro h
      cases h
  | some ticker =>
    simp only [beginDispatch, hticker, Option.isSome_some, iff_true]
    exact proceed ⟨hs.isRunning, hs.isOpen, rfl⟩

-- Only the first turn can be the last one.
theorem IsUp.dispatcherTurn_iff (hs : s.IsUp) :
    s.dispatcherTurn.IsUp ↔ (s.dispatcher.stage = .fresh → s.ticker?.isSome = true) := by
  unfold dispatcherTurn
  cases hstage : s.dispatcher.stage with
  | fresh => simpa using hs.beginDispatch_iff
  | absent | closing => simpa using hs
  | idle => simpa using hs.proceed
  | writing counted round => simpa using (hs.settleIfOver counted round).proceed
  | settling counted rest => simpa using (hs.settleRound counted rest).proceed

theorem start?_eq_none_iff (hhost : s.host.Serves clock) :
    s.start? = none ↔ s.hub.isUntried = true ∧
      ¬(0 < s.hub.settings.queueCapacity ∧ s.hub.settings.queueCapacity ≤ Host.greatestRoom) := by
  have hensure : s.hub.ensureStarted? s.host () s.source = none ↔ _ :=
    Hub.ensureStarted?_eq_none_iff
  rw [← hhost.hasRoom_iff, ← hensure]
  exact Option.map_eq_none_iff

-- A server, and what it is after its start: up, with a dispatcher that waits for its first turn.
structure Starts (s next : Server) : Prop where
  isUp : next.IsUp
  isFresh : next.dispatcher.stage = .fresh
  host_eq : next.host = s.host
  now_eq : next.now = s.now
  settings_eq : next.hub.settings = s.hub.settings

theorem Starts.wake {next : Server} (hs : s.Starts next) (w : Worker) :
    s.Starts (next.wake w) := by
  unfold Server.wake
  split
  · exact hs
  · exact ⟨⟨hs.isUp.isRunning, hs.isUp.isOpen, hs.isUp.isPresent⟩, hs.isFresh, hs.host_eq,
      hs.now_eq, hs.settings_eq⟩

-- The first start of a hub that has a queue and can subscribe to its source.
theorem start?_of_untried (huntried : s.hub.isUntried = true) (hstopped : s.hub.isRunning = false)
    (hroom : s.host.hasRoom s.hub.settings.queueCapacity = true)
    (hsource : s.source.failure = none) :
    ∃ next, s.start? = some (next, .ok ()) ∧ s.Starts next := by
  obtain ⟨hdown, hstartup⟩ : s.hub.isShutDown = false ∧ s.hub.startup = none := by
    simpa [Hub.isUntried] using huntried
  let hub : Hub := { s.hub with
    startup := some (.ok ())
    handle := some s.source.nextHandle
    intake := s.hub.intake.opened }
  obtain ⟨source, hensure⟩ : ∃ source,
      s.hub.ensureStarted? s.host () s.source = some (hub, source, .ok ()) := by
    simp [Hub.ensureStarted?, Hub.launch, hdown, hstartup, hroom, Source.subscribe, hsource, hub]
  have hrunning : hub.isRunning = true := rfl
  have hstart : s.start? =
      some (({ s with hub, source }.setStage .fresh).wake .dispatcher, .ok ()) := by
    simp [start?, hensure, hrunning, hstopped]
  have hstarts : s.Starts ({ s with hub, source }.setStage .fresh) :=
    ⟨⟨hrunning, rfl, rfl⟩, rfl, rfl, rfl, rfl⟩
  exact ⟨_, hstart, hstarts.wake .dispatcher⟩

theorem exists_starts_iff (hhost : s.host.Serves clock) (huntried : s.hub.isUntried = true)
    (hstopped : s.hub.isRunning = false) (hsource : s.source.failure = none) :
    (∃ next, s.start? = some (next, .ok ()) ∧ s.Starts next) ↔
      0 < s.hub.settings.queueCapacity ∧ s.hub.settings.queueCapacity ≤ Host.greatestRoom := by
  constructor
  · rintro ⟨next, hstart, -⟩
    refine Decidable.byContradiction fun hroom => ?_
    have hnone := (start?_eq_none_iff hhost).mpr ⟨huntried, hroom⟩
    cases hnone.symm.trans hstart
  · intro hroom
    exact start?_of_untried huntried hstopped ((hhost.hasRoom_iff _).mpr hroom) hsource

end Server

end ChatRelay

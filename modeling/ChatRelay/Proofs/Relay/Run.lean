import ChatRelay.Proofs.Hub.Run

namespace ChatRelay

-- A hub on its source and its host.
structure Relay where
  hub : Hub := {}
  source : Source Unit := {}
  host : Host
  -- The moment at which the dispatcher gets its first turn.
  firstTurn : Nat

-- The steps of a hub that its dispatcher takes.
def Hub.Step.isDispatching : Hub.Step → Bool
  | take | dispatch _ | keepalive _ => true
  | publish _ | register _ | subscribe _ _ | disconnect _ => false

namespace Relay

open Hub (Log)

inductive Action where
  | start
  -- From now on nobody can subscribe to the source.
  | fail (e : SourceError)
  | step (s : Hub.Step)
  | shutdown

namespace Action

def isStart : Action → Bool
  | start => true
  | _ => false

def isShutdown : Action → Bool
  | shutdown => true
  | _ => false

def failure? : Action → Option SourceError
  | fail e => some e
  | _ => none

-- The batch that is published.
def batch? : Action → Option Batch
  | step (.publish e) => e.batch?
  | _ => none

end Action

def ticker? (r : Relay) : Option Ticker :=
  r.host.firstTicker? r.firstTurn r.hub.settings.keepalive

-- What the source does with a client event, and what the hub does otherwise. A dispatcher without
-- a ticker for its pings ends when it gets its first turn.
def step (r : Relay) (s : Hub.Step) : Relay × Log :=
  match s with
  | .publish e => ({ r with hub := (r.source.publish (fun _ h => h.receive e) r.hub).1 }, [])
  | s =>
    if s.isDispatching && !r.hub.isRunning then (r, [])
    else if s.isDispatching && r.ticker?.isNone then
      ({ r with hub := { r.hub with intake := r.hub.intake.closed } }, [])
    else ({ r with hub := (r.hub.perform s).1 }, (r.hub.perform s).2)

def perform (r : Relay) : Action → Relay × Log
  | .start =>
    match r.hub.ensureStarted? r.host () r.source with
    | some (hub, source, _) => ({ r with hub, source }, [])
    | none => (r, [])
  | .fail e => ({ r with source := r.source.failWith e }, [])
  | .step s => r.step s
  | .shutdown =>
    let (hub, source, ids) := r.hub.shutdown r.source
    ({ r with hub, source }, ids.map (·, .close))

def run (r : Relay) (acts : List Action) : Relay := acts.foldl (fun r a => (r.perform a).1) r

def log (r : Relay) : List Action → Log
  | [] => []
  | a :: rest => (r.perform a).2 ++ log (r.perform a).1 rest

-- What somebody is told who starts the hub now, if anything.
def answer? (r : Relay) : Option (Except HubError Unit) :=
  (r.hub.ensureStarted? r.host () r.source).map (·.2.2)

def new (host : Host) (firstTurn : Nat) (settings : HubSettings) : Relay :=
  { hub := { settings }, host, firstTurn }

-- A hub on a host with a common clock, the dispatcher of which gets its turn at once.
def ofSettings (settings : HubSettings) : Relay := new (.ofClock {}) 0 settings

-- Whether the host has a queue for the hub.
def hasRoom (r : Relay) : Bool := r.host.hasRoom r.hub.settings.queueCapacity

theorem run_nil (r : Relay) : r.run [] = r := rfl

theorem run_cons (r : Relay) (a : Action) (acts : List Action) :
    r.run (a :: acts) = (r.perform a).1.run acts := rfl

theorem run_append (r : Relay) (xs ys : List Action) : r.run (xs ++ ys) = (r.run xs).run ys :=
  List.foldl_append

theorem run_concat (r : Relay) (acts : List Action) (a : Action) :
    r.run (acts ++ [a]) = ((r.run acts).perform a).1 := by
  rw [run_append, run_cons, run_nil]

theorem log_append (r : Relay) (xs ys : List Action) :
    r.log (xs ++ ys) = r.log xs ++ (r.run xs).log ys := by
  induction xs generalizing r with
  | nil => rfl
  | cons a xs ih => simp [log, run_cons, ih]

-- The outcome of subscribing to the source now.
def outcome (r : Relay) : Except HubError Unit :=
  match r.source.failure with
  | some e => .error (.subscribe e)
  | none => .ok ()

theorem answer?_eq (r : Relay) :
    r.answer? =
      if r.hub.isShutDown then some (.error .shutDown)
      else r.hub.startup.or (if r.hasRoom then some r.outcome else none) := by
  cases hd : r.hub.isShutDown with
  | true => simp [answer?, Hub.ensureStarted?, hd]
  | false =>
    cases hs : r.hub.startup with
    | some outcome => simp [answer?, Hub.ensureStarted?, hd, hs]
    | none =>
      cases hroom : r.host.hasRoom r.hub.settings.queueCapacity with
      | false => simp [answer?, hasRoom, Hub.ensureStarted?, hd, hs, hroom]
      | true =>
        cases hf : r.source.failure <;>
          simp [answer?, hasRoom, outcome, Hub.ensureStarted?, Hub.launch, hd, hs, hroom,
            Source.subscribe, hf]

-- A start does something only if there is a queue, and it is the first one and comes before every
-- shutdown.
theorem perform_start_eq (r : Relay) :
    r.perform .start =
      if r.hub.isShutDown || r.hub.startup.isSome || !r.hasRoom then (r, [])
      else
        match r.source.failure with
        | some e =>
          ({ r with
             hub := { r.hub with startup := some (.error (.subscribe e)) }
             source := { r.source with attempts := r.source.attempts + 1 } }, [])
        | none =>
          ({ r with
             hub :=
              { r.hub with
                startup := some (.ok ())
                handle := some r.source.nextHandle
                intake := r.hub.intake.opened }
             source :=
              { r.source with
                attempts := r.source.attempts + 1
                subscribers := r.source.subscribers ++ [(r.source.nextHandle, ())]
                nextHandle := r.source.nextHandle + 1 } }, []) := by
  cases hd : r.hub.isShutDown with
  | true => simp [perform, Hub.ensureStarted?, hd]
  | false =>
    cases hs : r.hub.startup with
    | some outcome => simp [perform, Hub.ensureStarted?, hd, hs]
    | none =>
      cases hroom : r.host.hasRoom r.hub.settings.queueCapacity with
      | false => simp [perform, hasRoom, Hub.ensureStarted?, hd, hs, hroom]
      | true =>
        cases hf : r.source.failure <;>
          simp [perform, hasRoom, Hub.ensureStarted?, Hub.launch, hd, hs, hroom, Source.subscribe,
            hf]

-- A client event reaches the hub as often as it is subscribed.
theorem publish_eq_run (s : Source Unit) (e : ClientEvent) (h : Hub) :
    (s.publish (fun _ h => h.receive e) h).1 = h.run (.replicate s.size (.publish e)) := by
  simp only [Source.publish, Source.size]
  induction s.subscribers generalizing h with
  | nil => rfl
  | cons subscriber rest ih => exact ih (h.receive e)

-- A step is a step of the hub, or it touches nothing but the intake.
theorem step_cases (r : Relay) (s : Hub.Step) :
    (∃ intake, r.step s = ({ r with hub := { r.hub with intake } }, [])) ∨
      ((s.isDispatching = true → r.hub.isRunning = true) ∧
        r.step s = ({ r with hub := (r.hub.perform s).1 }, (r.hub.perform s).2)) := by
  cases s with
  | publish e =>
    left
    simp only [step, publish_eq_run]
    induction r.source.size with
    | zero => exact ⟨_, rfl⟩
    | succ n ih =>
      obtain ⟨intake, hrun⟩ := ih
      simp only [Prod.mk.injEq, mk.injEq, and_true] at hrun
      rw [List.replicate_succ', Hub.run_concat, hrun, Hub.perform_publish_eq]
      exact ⟨_, rfl⟩
  | take | dispatch | keepalive =>
    simp only [step, Hub.Step.isDispatching, Bool.true_and]
    cases hrunning : r.hub.isRunning with
    | false => exact .inl ⟨_, rfl⟩
    | true =>
      cases hticker : r.ticker?.isNone with
      | true => exact .inl ⟨r.hub.intake.closed, by simp⟩
      | false => exact .inr ⟨fun _ => rfl, by simp⟩
  | register | subscribe | disconnect => exact .inr ⟨by simp [Hub.Step.isDispatching], rfl⟩

theorem step_frame (r : Relay) (s : Hub.Step) :
    (r.step s).1.source = r.source ∧ (r.step s).1.host = r.host ∧
      (r.step s).1.firstTurn = r.firstTurn ∧ (r.step s).1.hub.settings = r.hub.settings ∧
      (r.step s).1.hub.startup = r.hub.startup ∧ (r.step s).1.hub.handle = r.hub.handle ∧
      (r.step s).1.hub.isShutDown = r.hub.isShutDown := by
  rcases r.step_cases s with ⟨intake, hstep⟩ | ⟨-, hstep⟩
  · rw [hstep]
    exact ⟨rfl, rfl, rfl, rfl, rfl, rfl, rfl⟩
  · rw [hstep]
    exact ⟨rfl, rfl, rfl, r.hub.perform_frame s⟩

-- What does not change in a run.
structure SameSetting (r next : Relay) : Prop where
  settings : next.hub.settings = r.hub.settings
  host : next.host = r.host
  firstTurn : next.firstTurn = r.firstTurn

theorem SameSetting.hasRoom_eq {r next : Relay} (h : SameSetting r next) :
    next.hasRoom = r.hasRoom := by
  rw [hasRoom, h.host, h.settings, hasRoom]

theorem SameSetting.ticker?_eq {r next : Relay} (h : SameSetting r next) :
    next.ticker? = r.ticker? := by
  rw [ticker?, h.host, h.firstTurn, h.settings, ticker?]

theorem perform_setting (r : Relay) (a : Action) : SameSetting r (r.perform a).1 := by
  cases a with
  | start =>
    rw [perform_start_eq]
    split
    · exact ⟨rfl, rfl, rfl⟩
    · split <;> exact ⟨rfl, rfl, rfl⟩
  | fail | shutdown => exact ⟨rfl, rfl, rfl⟩
  | step s =>
    obtain ⟨-, hhost, hfirst, hsettings, -⟩ := r.step_frame s
    exact ⟨hsettings, hhost, hfirst⟩

theorem run_setting (r : Relay) (acts : List Action) : SameSetting r (r.run acts) := by
  induction acts generalizing r with
  | nil => exact ⟨rfl, rfl, rfl⟩
  | cons a acts ih =>
    obtain ⟨hsettings, hhost, hfirst⟩ := r.perform_setting a
    obtain ⟨hsettings', hhost', hfirst'⟩ := ih (r.perform a).1
    exact ⟨hsettings'.trans hsettings, hhost'.trans hhost, hfirst'.trans hfirst⟩

end Relay

end ChatRelay

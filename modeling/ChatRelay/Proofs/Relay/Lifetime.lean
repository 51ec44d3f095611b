import Mathlib.Data.List.Induction
import Mathlib.Data.List.TakeWhile
import ChatRelay.Proofs.Relay.Run

namespace ChatRelay.Relay

open Hub (sentTo)

-- Whether there was an attempt to start the hub before it was shut down.
def isAttempted (acts : List Action) : Bool :=
  (acts.takeWhile fun a => !a.isShutdown).any Action.isStart

-- The outcome of subscribing to the source after these actions.
def outcomeAfter (acts : List Action) : Except HubError Unit :=
  match (acts.filterMap Action.failure?).getLast? with
  | some e => .error (.subscribe e)
  | none => .ok ()

-- The outcome of the first start, or of one that would be the first.
def attempt (acts : List Action) : Except HubError Unit :=
  outcomeAfter (acts.takeWhile fun a => !a.isStart)

-- What a hub knows after these actions about how its start went, if there can be a queue for it.
def startupAfter (room : Bool) (acts : List Action) : Option (Except HubError Unit) :=
  if room && isAttempted acts then some (attempt acts) else none

theorem isAttempted_concat (acts : List Action) (a : Action) :
    isAttempted (acts ++ [a]) =
      (isAttempted acts || !acts.any Action.isShutdown && a.isStart) := by
  induction acts with
  | nil => cases a <;> rfl
  | cons first acts ih =>
    unfold isAttempted at ih ⊢
    cases hf : first.isShutdown with
    | true => simp [hf]
    | false => simp [hf, ih, Bool.or_assoc]

theorem takeWhile_not {p : Action → Bool} {acts : List Action} (h : acts.any p = false) :
    acts.takeWhile (fun a => !p a) = acts := by
  rw [List.takeWhile_eq_self_iff]
  intro a ha
  simpa using List.any_eq_false.mp h a ha

theorem isAttempted_of_no_shutdown {acts : List Action}
    (h : acts.any Action.isShutdown = false) : isAttempted acts = acts.any Action.isStart := by
  rw [isAttempted, takeWhile_not h]

theorem any_isStart_of_isAttempted {acts : List Action} (h : isAttempted acts = true) :
    acts.any Action.isStart = true := by
  obtain ⟨a, ha, hs⟩ := List.any_eq_true.mp h
  exact List.any_eq_true.mpr ⟨a, (List.takeWhile_sublist _).mem ha, hs⟩

theorem attempt_of_no_start {acts : List Action} (h : acts.any Action.isStart = false) :
    attempt acts = outcomeAfter acts := by
  rw [attempt, takeWhile_not h]

-- After the first start nothing changes how it went.
theorem attempt_concat_of_start {acts : List Action} (h : acts.any Action.isStart = true)
    (a : Action) : attempt (acts ++ [a]) = attempt acts := by
  obtain ⟨x, hx, hs⟩ := List.any_eq_true.mp h
  rw [attempt, attempt, List.takeWhile_append, if_neg]
  intro hlength
  have hall := List.takeWhile_eq_self_iff.mp
    ((List.takeWhile_prefix fun a : Action => !a.isStart).eq_of_length hlength)
  simpa [hs] using hall x hx

-- The first start decides.
theorem attempt_concat_start {acts : List Action} {a : Action}
    (h : acts.any Action.isStart = false) (ha : a.isStart = true) :
    attempt (acts ++ [a]) = outcomeAfter acts := by
  simp [attempt, List.takeWhile_append, takeWhile_not h, ha]

theorem startupAfter_concat (room : Bool) (acts : List Action) (a : Action) :
    startupAfter room (acts ++ [a]) =
      (startupAfter room acts).or
        (if room && !acts.any Action.isShutdown && a.isStart then some (outcomeAfter acts)
          else none) := by
  unfold startupAfter
  rw [isAttempted_concat]
  cases room with
  | false => rfl
  | true =>
    cases hatt : isAttempted acts with
    | true => simp [attempt_concat_of_start (any_isStart_of_isAttempted hatt)]
    | false =>
      cases hshut : acts.any Action.isShutdown with
      | true => simp
      | false =>
        have hnone : acts.any Action.isStart = false := by
          rw [← isAttempted_of_no_shutdown hshut, hatt]
        cases ha : a.isStart with
        | true => simp [attempt_concat_start hnone ha]
        | false => simp

theorem isSome_startupAfter (room : Bool) (acts : List Action) :
    (startupAfter room acts).isSome = (room && isAttempted acts) := by
  unfold startupAfter
  split
  · next h => rw [h]; rfl
  · next h => exact (Bool.eq_false_iff.mpr h).symm

theorem outcomeAfter_concat (acts : List Action) (a : Action) :
    outcomeAfter (acts ++ [a]) =
      match a.failure? with
      | some e => .error (.subscribe e)
      | none => outcomeAfter acts := by
  cases a <;> simp [outcomeAfter, Action.failure?]

-- A relay after these actions, on a host with or without a queue for it.
structure Lived (room : Bool) (acts : List Action) (r : Relay) : Prop where
  hasRoom : r.hasRoom = room
  isShutDown : r.hub.isShutDown = acts.any Action.isShutdown
  startup : r.hub.startup = startupAfter room acts
  attempts : r.source.attempts = if room && isAttempted acts then 1 else 0
  outcome : r.outcome = outcomeAfter acts
  -- The source knows the hub by its handle and nobody else.
  subscribers : r.source.subscribers = r.hub.handle.toList.map (·, ())
  -- A hub that was not started has no handle.
  handle : r.hub.startup = none → r.hub.handle = none

-- Whatever is neither a first start nor a shutdown and leaves the source as it is.
theorem Lived.concat_of_same {room : Bool} {acts : List Action} {r next : Relay}
    (hr : Lived room acts r) {a : Action}
    (hstart : a.isStart = true →
      r.hub.isShutDown = true ∨ r.hub.startup.isSome = true ∨ r.hasRoom = false)
    (hshut : a.isShutdown = false) (hfail : a.failure? = none) (hsetting : SameSetting r next)
    (hsource : next.source = r.source) (hstartup : next.hub.startup = r.hub.startup)
    (hhandle : next.hub.handle = r.hub.handle)
    (hdown : next.hub.isShutDown = r.hub.isShutDown) : Lived room (acts ++ [a]) next := by
  have hafter : startupAfter room (acts ++ [a]) = startupAfter room acts := by
    rw [startupAfter_concat, ← hr.isShutDown, ← hr.startup]
    cases ha : a.isStart with
    | false => simp
    | true =>
      rcases hstart ha with h | h | h
      · simp [h]
      · obtain ⟨outcome, hs⟩ := Option.isSome_iff_exists.mp h
        simp [hs]
      · simp [← hr.hasRoom, h]
  have hattempted : (room && isAttempted (acts ++ [a])) = (room && isAttempted acts) := by
    rw [← isSome_startupAfter, hafter, isSome_startupAfter]
  have houtcome : next.outcome = r.outcome := by rw [Relay.outcome, Relay.outcome, hsource]
  refine ⟨?_, ?_, ?_, ?_, ?_, ?_, ?_⟩
  · rw [hsetting.hasRoom_eq, hr.hasRoom]
  · rw [hdown, hr.isShutDown, List.any_append, List.any_cons, hshut]
    simp
  · rw [hstartup, hafter, hr.startup]
  · rw [hsource, hattempted, hr.attempts]
  · rw [houtcome, outcomeAfter_concat, hfail, hr.outcome]
  · rw [hsource, hhandle, hr.subscribers]
  · rw [hstartup, hhandle]
    exact hr.handle

-- The first start before every shutdown.
theorem Lived.perform_first {acts : List Action} {r : Relay} (hr : Lived true acts r)
    (hdown : r.hub.isShutDown = false) (hnone : r.hub.startup = none) :
    Lived true (acts ++ [.start]) (r.perform .start).1 := by
  have hshut : acts.any Action.isShutdown = false := by rw [← hr.isShutDown, hdown]
  have hattempts : r.source.attempts = 0 := by
    have hnot : isAttempted acts = false := by simpa [hnone, startupAfter] using hr.startup
    simpa [hnot] using hr.attempts
  have hsubscribers : r.source.subscribers = [] := by
    rw [hr.subscribers, hr.handle hnone]
    rfl
  have hdown' : r.hub.isShutDown = (acts ++ [Action.start]).any Action.isShutdown := by
    rw [hdown, List.any_append, hshut]
    rfl
  have hfirst : isAttempted (acts ++ [Action.start]) = true := by
    simp [isAttempted_concat, hshut, Action.isStart]
  have hattempts' : r.source.attempts + 1 =
      if (true && isAttempted (acts ++ [Action.start])) = true then 1 else 0 := by
    rw [hattempts, hfirst]
    rfl
  have hafter : startupAfter true (acts ++ [Action.start]) = some r.outcome := by
    rw [startupAfter_concat, ← hr.startup, hnone, hshut, hr.outcome]
    rfl
  have hsame : r.outcome = outcomeAfter (acts ++ [Action.start]) := by
    rw [outcomeAfter_concat, hr.outcome]
    rfl
  rw [perform_start_eq, if_neg (by simp [hdown, hnone, hr.hasRoom])]
  cases hf : r.source.failure with
  | some e =>
    have ho : r.outcome = .error (.subscribe e) := by simp [Relay.outcome, hf]
    rw [ho] at hafter
    exact ⟨hr.hasRoom, hdown', hafter.symm, hattempts', hsame, hr.subscribers, fun h => by cases h⟩
  | none =>
    have ho : r.outcome = .ok () := by simp [Relay.outcome, hf]
    rw [ho] at hafter
    refine ⟨hr.hasRoom, hdown', hafter.symm, hattempts', hsame, ?_, fun h => by cases h⟩
    rw [hsubscribers]
    rfl

-- A shutdown takes the hub away from the source.
theorem Lived.shutdown_source {room : Bool} {acts : List Action} {r : Relay}
    (hr : Lived room acts r) :
    (r.perform .shutdown).1.source = { r.source with subscribers := [] } := by
  have hsubscribers := hr.subscribers
  simp only [Relay.perform, Hub.shutdown]
  cases hh : r.hub.handle with
  | none =>
    rw [hh] at hsubscribers
    simp only [Option.toList_none, List.map_nil] at hsubscribers
    simp only [← hsubscribers]
  | some k => simp [Source.release, hsubscribers, hh]

theorem Lived.perform {room : Bool} {acts : List Action} {r : Relay} (hr : Lived room acts r)
    (a : Action) : Lived room (acts ++ [a]) (r.perform a).1 := by
  cases a with
  | start =>
    by_cases hidle : r.hub.isShutDown = true ∨ r.hub.startup.isSome = true ∨ r.hasRoom = false
    · have hsame : r.perform .start = (r, []) := by
        rw [perform_start_eq, if_pos (by simpa [or_assoc] using hidle)]
      rw [hsame]
      exact hr.concat_of_same (fun _ => hidle) rfl rfl ⟨rfl, rfl, rfl⟩ rfl rfl rfl rfl
    · obtain ⟨hdown, hnone, hroom⟩ :
          r.hub.isShutDown = false ∧ r.hub.startup = none ∧ r.hasRoom = true := by
        simpa using hidle
      obtain rfl : room = true := hr.hasRoom.symm.trans hroom
      exact hr.perform_first hdown hnone
  | fail e =>
    show Lived room (acts ++ [.fail e]) { r with source := r.source.failWith e }
    refine ⟨hr.hasRoom, ?_, ?_, ?_, ?_, hr.subscribers, hr.handle⟩
    · simpa [Action.isShutdown] using hr.isShutDown
    · simpa [startupAfter_concat, Action.isStart] using hr.startup
    · simpa [isAttempted_concat, Action.isStart, Source.failWith] using hr.attempts
    · rw [outcomeAfter_concat]
      rfl
  | step s =>
    obtain ⟨hsource, -, -, -, hstartup, hhandle, hdown⟩ := r.step_frame s
    exact hr.concat_of_same (by simp [Action.isStart]) rfl rfl (r.perform_setting (.step s)) hsource
      hstartup hhandle hdown
  | shutdown =>
    have hsource := hr.shutdown_source
    have hstartup : (r.perform .shutdown).1.hub.startup = r.hub.startup := rfl
    refine ⟨hr.hasRoom, ?_, ?_, ?_, ?_, ?_, fun _ => rfl⟩
    · simp [Relay.perform, Hub.shutdown, Action.isShutdown]
    · rw [hstartup, hr.startup, startupAfter_concat]
      simp [Action.isStart]
    · rw [hsource, isAttempted_concat]
      simpa [Action.isStart] using hr.attempts
    · rw [Relay.outcome, hsource, outcomeAfter_concat]
      exact hr.outcome
    · rw [hsource]
      rfl

theorem lived_run (host : Host) (firstTurn : Nat) (settings : HubSettings) (acts : List Action) :
    Lived (host.hasRoom settings.queueCapacity) acts ((new host firstTurn settings).run acts) := by
  induction acts using List.reverseRecOn with
  | nil =>
    have hstartup : startupAfter (host.hasRoom settings.queueCapacity) [] = none := by
      simp [startupAfter, isAttempted]
    have hattempts : (if (host.hasRoom settings.queueCapacity && isAttempted []) = true then 1
        else 0) = 0 := by
      simp [isAttempted]
    exact ⟨rfl, rfl, hstartup.symm, hattempts.symm, rfl, rfl, fun _ => rfl⟩
  | append_singleton acts a ih =>
    rw [run_concat]
    exact ih.perform a

theorem Lived.answer? {room : Bool} {acts : List Action} {r : Relay} (hr : Lived room acts r) :
    r.answer? =
      if acts.any Action.isShutdown then some (.error .shutDown)
      else if room then some (attempt acts) else none := by
  rw [answer?_eq, hr.isShutDown, hr.hasRoom]
  split
  · rfl
  · next hshut =>
    rw [hr.startup, hr.outcome, startupAfter]
    cases room with
    | false => rfl
    | true =>
      cases hatt : isAttempted acts with
      | true => rfl
      | false =>
        rw [isAttempted_of_no_shutdown (by simpa using hshut)] at hatt
        rw [attempt_of_no_start hatt]
        rfl

structure IsDown (r : Relay) : Prop where
  isShutDown : r.hub.isShutDown = true
  handle : r.hub.handle = none
  subscribers : r.source.subscribers = []

theorem Lived.isDown {room : Bool} {acts : List Action} {r : Relay} (hr : Lived room acts r) :
    (r.perform .shutdown).1.IsDown :=
  ⟨rfl, rfl, by rw [hr.shutdown_source]⟩

theorem IsDown.perform {r : Relay} (hr : r.IsDown) (a : Action) : (r.perform a).1.IsDown := by
  cases a with
  | start =>
    rw [perform_start_eq, if_pos (by simp [hr.isShutDown])]
    exact hr
  | fail e => exact ⟨hr.isShutDown, hr.handle, hr.subscribers⟩
  | step s =>
    obtain ⟨hsource, -, -, -, -, hhandle, hdown⟩ := r.step_frame s
    exact ⟨hdown.trans hr.isShutDown, hhandle.trans hr.handle, by
      rw [Relay.perform, hsource, hr.subscribers]⟩
  | shutdown =>
    refine ⟨rfl, rfl, ?_⟩
    simp only [Relay.perform, Hub.shutdown, hr.handle]
    exact hr.subscribers

theorem IsDown.log_perform {r : Relay} (hr : r.IsDown) (a : Action) :
    ∀ x ∈ (r.perform a).2, x.2 = .close := by
  cases a with
  | start => simp [perform_start_eq, hr.isShutDown]
  | fail e => simp [Relay.perform]
  | shutdown =>
    intro x hx
    obtain ⟨id, -, rfl⟩ := List.mem_map.mp hx
    rfl
  | step s =>
    have hrunning : r.hub.isRunning = false := by simp [Hub.isRunning, hr.handle]
    rw [Relay.perform]
    rcases r.step_cases s with ⟨intake, hstep⟩ | ⟨hdispatching, hstep⟩
    · simp [hstep]
    · rw [hstep]
      -- The dispatcher is gone, so what is left is done by the connections.
      cases s with
      | take | dispatch | keepalive => simp [hrunning, Hub.Step.isDispatching] at hdispatching
      | publish | register | subscribe => simp [Hub.perform]
      | disconnect id =>
        rw [Hub.perform_disconnect]
        intro x hx
        split at hx
        · obtain rfl := List.mem_singleton.mp hx
          rfl
        · cases hx

theorem IsDown.run {r : Relay} (hr : r.IsDown) (acts : List Action) :
    (r.run acts).IsDown ∧ ∀ x ∈ r.log acts, x.2 = .close := by
  induction acts generalizing r with
  | nil => exact ⟨hr, by simp [log]⟩
  | cons a acts ih =>
    obtain ⟨hdown, hlog⟩ := ih (hr.perform a)
    refine ⟨hdown, fun x hx => ?_⟩
    rcases List.mem_append.mp hx with hx | hx
    · exact hr.log_perform a x hx
    · exact hlog x hx

-- For every run on every host, whenever the source begins to fail. If the host has a queue for the
-- hub, the source sees one attempt to subscribe, and only if there is a start before every shutdown;
-- whoever starts the hub before the first shutdown is told how that attempt went. Without a queue
-- nobody gets as far as an attempt, or is told anything. After a shutdown everybody is told that the
-- hub was shut down. From the first shutdown on the source has no subscriber; every connection that
-- was registered then is out and closed, and nobody is sent a change or a ping any more, whoever
-- registers later.
theorem subscribed_once_until_shutdown (host : Host) (firstTurn : Nat) (settings : HubSettings) :
    (∀ acts,
      let r := (new host firstTurn settings).run acts
      let room := host.hasRoom settings.queueCapacity
      r.source.attempts = (if room && isAttempted acts then 1 else 0) ∧
        r.answer? =
          if acts.any Action.isShutdown then some (.error .shutDown)
          else if room then some (attempt acts) else none) ∧
    ∀ before after,
      let r := (new host firstTurn settings).run before
      let next := (r.perform .shutdown).1
      (next.run after).source.size = 0 ∧
      (∀ id, next.hub.registry.contains id = false ∧
        sentTo id (r.perform .shutdown).2 =
          if r.hub.registry.contains id then [.close] else []) ∧
      ∀ x ∈ next.log after, x.2 = .close := by
  refine ⟨fun acts => ?_, ?_⟩
  · have hlived := lived_run host firstTurn settings acts
    exact ⟨hlived.attempts, hlived.answer?⟩
  intro before after r next
  obtain ⟨hdown, hlog⟩ := (lived_run host firstTurn settings before).isDown.run after
  refine ⟨?_, fun id => ⟨rfl, ?_⟩, hlog⟩
  · rw [Source.size, hdown.subscribers]
    rfl
  · have hsent : sentTo id (r.perform .shutdown).2 =
        if id ∈ r.hub.registry.ids then [.close] else [] :=
      Hub.sentTo_map id (fun _ => .close) r.hub.registry.nodup
    rw [hsent]
    simp only [Registry.mem_ids_iff]

end ChatRelay.Relay

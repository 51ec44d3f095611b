import ChatRelay.Proofs.Host
import ChatRelay.Proofs.Relay.Run

namespace ChatRelay

-- The intake as if it had dropped some more batches.
def Intake.withDropped (n : Nat) (q : Intake) : Intake := { q with dropped := q.dropped + n }

theorem Intake.offer_withDropped (n capacity : Nat) (b : Batch) (q : Intake) :
    (q.withDropped n).offer capacity b = (q.offer capacity b).withDropped n := by
  unfold offer withDropped
  by_cases ho : q.isOpen = true
  · by_cases hroom : q.waiting.length < capacity
    · simp [ho, hroom]
    · simp [ho, hroom, Nat.add_right_comm]
  · simp [ho]

namespace Hub

def withDropped (n : Nat) (h : Hub) : Hub := { h with intake := h.intake.withDropped n }

-- Whether a step looks at the intake.
def Step.isIngesting : Step → Bool
  | publish _ | take => true
  | dispatch _ | register _ | subscribe _ _ | disconnect _ | keepalive _ => false

theorem perform_of_not_ingesting (h : Hub) (intake : Intake) {s : Step}
    (hs : s.isIngesting = false) :
    ({ h with intake } : Hub).perform s =
      ({ (h.perform s).1 with intake }, (h.perform s).2) := by
  cases s with
  | publish | take => cases hs
  | dispatch o =>
    cases hp : h.pending with
    | nil => simp [perform, hp]
    | cons c rest =>
      let d : Dispatch := { hub := { h with pending := rest }, change := c, occasion := o }
      have hd : h.dispatch? (.dispatch o) = some d := by simp [dispatch?, hp, d]
      have hd' : ({ h with intake } : Hub).dispatch? (.dispatch o) =
          some { d with hub := { d.hub with intake } } := by
        simp [dispatch?, hp, d]
      rw [perform_of_dispatch? hd, ← hp, perform_of_dispatch? hd']
      simp only [Dispatched.log, Dispatch.result_announcement, Dispatch.result_closed,
        Dispatch.result_hub]
      rfl
  | register | subscribe => rfl
  | disconnect other => simp only [perform_disconnect]
  | keepalive write =>
    simp only [perform_keepalive]
    rfl

theorem perform_intake {h : Hub} {s : Step} (hs : s.isIngesting = false) :
    (h.perform s).1.intake = h.intake :=
  congrArg (fun p => p.1.intake) (h.perform_of_not_ingesting h.intake hs)

-- What is let in finds room, so that never more than there is room for waits.
theorem perform_room {h : Hub} (hroom : h.intake.waiting.length ≤ h.settings.queueCapacity)
    (s : Step) :
    (h.perform s).1.intake.isOpen = h.intake.isOpen ∧
      (h.perform s).1.intake.waiting.length ≤ h.settings.queueCapacity := by
  cases s with
  | publish e =>
    rw [perform_publish_eq]
    cases e.batch? with
    | none => exact ⟨rfl, hroom⟩
    | some b =>
      simp only [Option.elim_some, Intake.offer]
      split
      · exact ⟨rfl, hroom⟩
      · split
        · next hlt => exact ⟨rfl, by simpa using Nat.succ_le_of_lt hlt⟩
        · exact ⟨rfl, hroom⟩
  | take =>
    rw [perform_take_eq]
    split
    · next hw => exact ⟨rfl, by rw [hw, List.length_cons] at hroom; exact Nat.le_of_lt hroom⟩
    · exact ⟨rfl, hroom⟩
  | dispatch | register | subscribe | disconnect | keepalive =>
    rw [perform_intake rfl]
    exact ⟨rfl, hroom⟩

theorem perform_withDropped (n : Nat) (h : Hub) (s : Step) :
    (h.withDropped n).perform s = ((h.perform s).1.withDropped n, (h.perform s).2) := by
  cases hs : s.isIngesting with
  | false =>
    rw [withDropped, perform_of_not_ingesting h _ hs]
    simp only [withDropped, perform_intake hs]
  | true =>
    cases s with
    | publish e =>
      simp only [perform_publish_eq, withDropped]
      cases e.batch? with
      | none => rfl
      | some b => simp only [Option.elim_some, Intake.offer_withDropped]
    | take =>
      simp only [perform_take_eq, withDropped, Intake.withDropped]
      split <;> rfl
    | dispatch | register | subscribe | disconnect | keepalive => cases hs

theorem run_withDropped (n : Nat) (h : Hub) (steps : List Step) :
    (h.withDropped n).run steps = (h.run steps).withDropped n := by
  induction steps generalizing h with
  | nil => rfl
  | cons s steps ih => rw [run_cons, perform_withDropped, ih, run_cons]

end Hub

namespace Relay

-- The batch that an action turns to.
def taken? (r : Relay) : Action → Option Batch
  | .step s => if r.hub.isRunning && r.ticker?.isSome then r.hub.taken? s else none
  | _ => none

-- The batch that an action publishes, if the hub counts it among those that it received.
def received? (r : Relay) (a : Action) : Option Batch :=
  if r.hub.intake.received < (r.perform a).1.hub.intake.received then a.batch? else none

-- The batch that an action publishes, if the hub counts it among those that it dropped.
def dropped? (r : Relay) (a : Action) : Option Batch :=
  if r.hub.intake.dropped < (r.perform a).1.hub.intake.dropped then a.batch? else none

-- What a run yields, action by action.
def collect (pick? : Relay → Action → Option Batch) (r : Relay) : List Action → List Batch
  | [] => []
  | a :: rest => (pick? r a).toList ++ collect pick? (r.perform a).1 rest

def taken (r : Relay) (acts : List Action) : List Batch := r.collect taken? acts

def received (r : Relay) (acts : List Action) : List Batch := r.collect received? acts

def dropped (r : Relay) (acts : List Action) : List Batch := r.collect dropped? acts

theorem collect_append (pick? : Relay → Action → Option Batch) (r : Relay)
    (xs ys : List Action) :
    r.collect pick? (xs ++ ys) = r.collect pick? xs ++ (r.run xs).collect pick? ys := by
  induction xs generalizing r with
  | nil => rfl
  | cons a xs ih => simp [collect, run_cons, ih]

-- A hub that was started and not shut down, as the only subscriber of its source, and with a
-- dispatcher that does not end.
structure IsUp (r : Relay) : Prop where
  ticker : r.ticker?.isSome = true
  isRunning : r.hub.isRunning = true
  isStarted : r.hub.startup.isSome = true
  size : r.source.size = 1
  isOpen : r.hub.intake.isOpen = true
  room : r.hub.intake.waiting.length ≤ r.hub.settings.queueCapacity

-- While it is up, a step is a step of the hub.
theorem IsUp.step_eq {r : Relay} (hr : r.IsUp) (s : Hub.Step) :
    r.step s = ({ r with hub := (r.hub.perform s).1 }, (r.hub.perform s).2) := by
  cases s with
  | publish e =>
    simp only [step, publish_eq_run, hr.size]
    rfl
  | take | dispatch | keepalive =>
    have hticker : r.ticker?.isNone = false := by simpa using hr.ticker
    simp [step, hr.isRunning, hticker]
  | register | subscribe | disconnect => rfl

theorem IsUp.perform_start {r : Relay} (hr : r.IsUp) : r.perform .start = (r, []) := by
  simp [perform_start_eq, hr.isStarted]

theorem IsUp.publish_eq {r : Relay} (hr : r.IsUp) {e : ClientEvent} {b : Batch}
    (he : e.batch? = some b) :
    (r.perform (.step (.publish e))).1.hub.intake =
      if r.hub.intake.waiting.length < r.hub.settings.queueCapacity then
        { r.hub.intake with
          waiting := r.hub.intake.waiting ++ [b], received := r.hub.intake.received + 1 }
      else { r.hub.intake with dropped := r.hub.intake.dropped + 1 } := by
  simp [perform, hr.step_eq, Hub.perform_publish_eq, he, Intake.offer, hr.isOpen]

theorem IsUp.received?_publish {r : Relay} (hr : r.IsUp) {e : ClientEvent} {b : Batch}
    (he : e.batch? = some b) :
    r.received? (.step (.publish e)) =
      if r.hub.intake.waiting.length < r.hub.settings.queueCapacity then some b else none := by
  rw [received?, hr.publish_eq he]
  split <;> simp [Action.batch?, he]

theorem IsUp.dropped?_publish {r : Relay} (hr : r.IsUp) {e : ClientEvent} {b : Batch}
    (he : e.batch? = some b) :
    r.dropped? (.step (.publish e)) =
      if r.hub.intake.waiting.length < r.hub.settings.queueCapacity then none else some b := by
  rw [dropped?, hr.publish_eq he]
  split <;> simp [Action.batch?, he]

-- What a run does to the batches.
structure Moves (r : Relay) (acts : List Action) : Prop where
  waiting : r.hub.intake.waiting ++ r.received acts =
    r.taken acts ++ (r.run acts).hub.intake.waiting
  received : (r.run acts).hub.intake.received =
    r.hub.intake.received + (r.received acts).length
  dropped : (r.run acts).hub.intake.dropped =
    r.hub.intake.dropped + (r.dropped acts).length
  published : (r.received acts).length + (r.dropped acts).length =
    (acts.filterMap Action.batch?).length

theorem received_singleton (r : Relay) (a : Action) : r.received [a] = (r.received? a).toList :=
  List.append_nil _

theorem dropped_singleton (r : Relay) (a : Action) : r.dropped [a] = (r.dropped? a).toList :=
  List.append_nil _

theorem taken_singleton (r : Relay) (a : Action) : r.taken [a] = (r.taken? a).toList :=
  List.append_nil _

theorem moves_of_idle {r : Relay} {a : Action}
    (hintake : (r.perform a).1.hub.intake = r.hub.intake) (hbatch : a.batch? = none)
    (htaken : r.taken? a = none) : r.Moves [a] := by
  constructor <;> simp [received_singleton, dropped_singleton, taken_singleton, received?,
    dropped?, hintake, hbatch, htaken, run_cons, run_nil]

theorem IsUp.moves_publish {r : Relay} (hr : r.IsUp) (e : ClientEvent) :
    r.Moves [.step (.publish e)] := by
  cases he : e.batch? with
  | none =>
    refine moves_of_idle ?_ he ?_
    · simp [perform, hr.step_eq, Hub.perform_publish_eq, he]
    · simp [taken?, Hub.taken?]
  | some b =>
    have hbatch : Action.batch? (.step (.publish e)) = some b := he
    have htaken : r.taken? (.step (.publish e)) = none := by simp [taken?, Hub.taken?]
    constructor <;>
      simp only [received_singleton, dropped_singleton, taken_singleton, run_cons, run_nil,
        hr.publish_eq he, hr.received?_publish he, hr.dropped?_publish he, htaken] <;>
      split <;> simp [hbatch]

theorem IsUp.moves_take {r : Relay} (hr : r.IsUp) : r.Moves [.step .take] := by
  have hperform : (r.perform (.step .take)).1.hub = (r.hub.perform .take).1 := by
    simp [perform, hr.step_eq]
  have hbatch : Action.batch? (.step .take) = none := rfl
  cases hp : r.hub.pending with
  | cons c rest =>
    refine moves_of_idle ?_ hbatch ?_
    · simp [hperform, Hub.perform_take_eq, hp]
    · simp [taken?, Hub.taken?, hp]
  | nil =>
    cases hw : r.hub.intake.waiting with
    | nil =>
      refine moves_of_idle ?_ hbatch ?_
      · simp [hperform, Hub.perform_take_eq, hp, hw]
      · simp [taken?, Hub.taken?, hp, Intake.next?, hw]
    | cons b rest =>
      have htaken : r.taken? (.step .take) = some b := by
        simp [taken?, hr.isRunning, hr.ticker, Hub.taken?, hp, Intake.next?, hw]
      constructor <;>
        simp [received_singleton, dropped_singleton, taken_singleton, received?, dropped?, run_cons,
          run_nil, hperform, Hub.perform_take_eq, hp, hw, htaken, hbatch]

theorem IsUp.moves {r : Relay} (hr : r.IsUp) {a : Action} (ha : a.isShutdown = false) :
    r.Moves [a] := by
  cases a with
  | start => exact moves_of_idle (by rw [hr.perform_start]) rfl rfl
  | fail e => exact moves_of_idle rfl rfl rfl
  | shutdown => cases ha
  | step s =>
    cases s with
    | publish e => exact hr.moves_publish e
    | take => exact hr.moves_take
    | dispatch | register | subscribe | disconnect | keepalive =>
      refine moves_of_idle ?_ rfl ?_
      · simp only [perform, hr.step_eq]
        exact Hub.perform_intake rfl
      · simp [taken?, Hub.taken?]

-- Nothing but a shutdown takes a hub down.
theorem IsUp.perform {r : Relay} (hr : r.IsUp) {a : Action} (ha : a.isShutdown = false) :
    (r.perform a).1.IsUp := by
  have hticker := (r.perform_setting a).ticker?_eq ▸ hr.ticker
  cases a with
  | start => rwa [hr.perform_start]
  | fail e => exact ⟨hticker, hr.isRunning, hr.isStarted, hr.size, hr.isOpen, hr.room⟩
  | shutdown => cases ha
  | step s =>
    obtain ⟨hsettings, hstartup, hhandle, -⟩ := r.hub.perform_frame s
    obtain ⟨hopen, hroom⟩ := Hub.perform_room hr.room s
    simp only [Relay.perform, hr.step_eq] at hticker ⊢
    refine ⟨hticker, ?_, ?_, hr.size, hopen.trans hr.isOpen, ?_⟩
    · rw [Hub.isRunning, hhandle]
      exact hr.isRunning
    · rw [hstartup]
      exact hr.isStarted
    · rw [hsettings]
      exact hroom

theorem Moves.cons {r : Relay} {a : Action} {acts : List Action} (ha : r.Moves [a])
    (hrest : (r.perform a).1.Moves acts) : r.Moves (a :: acts) := by
  have hreceived : r.received (a :: acts) = r.received [a] ++ (r.perform a).1.received acts :=
    collect_append received? r [a] acts
  have hdropped : r.dropped (a :: acts) = r.dropped [a] ++ (r.perform a).1.dropped acts :=
    collect_append dropped? r [a] acts
  have htaken : r.taken (a :: acts) = r.taken [a] ++ (r.perform a).1.taken acts :=
    collect_append taken? r [a] acts
  obtain ⟨hw, hr, hd, hp⟩ := ha
  obtain ⟨hw', hr', hd', hp'⟩ := hrest
  simp only [run_cons, run_nil] at hw hr hd
  constructor
  · rw [hreceived, htaken, run_cons, ← List.append_assoc, hw, List.append_assoc, hw',
      List.append_assoc]
  · rw [run_cons, hr', hr, hreceived, List.length_append, Nat.add_assoc]
  · rw [run_cons, hd', hd, hdropped, List.length_append, Nat.add_assoc]
  · have hbatches : (a :: acts).filterMap Action.batch? =
        [a].filterMap Action.batch? ++ acts.filterMap Action.batch? :=
      List.filterMap_append (l := [a])
    rw [hreceived, hdropped, hbatches, List.length_append, List.length_append,
      List.length_append, ← hp, ← hp']
    omega

theorem IsUp.run {r : Relay} (hr : r.IsUp) {acts : List Action}
    (hacts : ∀ a ∈ acts, a.isShutdown = false) : (r.run acts).IsUp ∧ r.Moves acts := by
  induction acts generalizing r with
  | nil => exact ⟨hr, by constructor <;> simp [received, dropped, taken, collect, run_nil]⟩
  | cons a acts ih =>
    have ha := hacts a List.mem_cons_self
    obtain ⟨hup, hmoves⟩ := ih (hr.perform ha) fun x hx => hacts x (List.mem_cons_of_mem a hx)
    exact ⟨hup, (hr.moves ha).cons hmoves⟩

-- A hub that nobody has tried to start.
structure IsFresh (r : Relay) : Prop where
  startup : r.hub.startup = none
  handle : r.hub.handle = none
  subscribers : r.source.subscribers = []
  intake : r.hub.intake = {}

theorem IsFresh.perform {r : Relay} (hr : r.IsFresh) {a : Action} (ha : a.isStart = false) :
    (r.perform a).1.IsFresh := by
  cases a with
  | start => cases ha
  | fail e => exact ⟨hr.startup, hr.handle, hr.subscribers, hr.intake⟩
  | shutdown =>
    refine ⟨hr.startup, rfl, ?_, ?_⟩
    · simp only [Relay.perform, Hub.shutdown, hr.handle]
      exact hr.subscribers
    · simp only [Relay.perform, Hub.shutdown, hr.intake]
      rfl
  | step s =>
    have hrunning : r.hub.isRunning = false := by simp [Hub.isRunning, hr.handle]
    cases s with
    | publish e =>
      have hsize : r.source.size = 0 := by simp [Source.size, hr.subscribers]
      simp only [Relay.perform, step, publish_eq_run, hsize]
      exact hr
    | take | dispatch | keepalive =>
      simp only [Relay.perform, step, Hub.Step.isDispatching, hrunning]
      exact hr
    | register | subscribe => exact ⟨hr.startup, hr.handle, hr.subscribers, hr.intake⟩
    | disconnect id =>
      simp only [Relay.perform, step, Hub.Step.isDispatching, Hub.perform_disconnect]
      exact ⟨hr.startup, hr.handle, hr.subscribers, hr.intake⟩

theorem IsFresh.run {r : Relay} (hr : r.IsFresh) {acts : List Action}
    (hacts : ∀ a ∈ acts, a.isStart = false) : (r.run acts).IsFresh := by
  induction acts generalizing r with
  | nil => exact hr
  | cons a acts ih =>
    exact ih (hr.perform (hacts a List.mem_cons_self)) fun x hx =>
      hacts x (List.mem_cons_of_mem a hx)

-- A first start that succeeds opens the intake.
theorem IsFresh.perform_start {r : Relay} (hr : r.IsFresh)
    (hticker : r.ticker?.isSome = true) (hok : r.answer? = some (.ok ())) :
    (r.perform .start).1.IsUp ∧ (r.perform .start).1.hub.intake = { isOpen := true } := by
  have hd : r.hub.isShutDown = false := by
    cases hd : r.hub.isShutDown with
    | true => simp [answer?_eq, hd] at hok
    | false => rfl
  have hroom : r.hasRoom = true := by
    cases hroom : r.hasRoom with
    | true => rfl
    | false => simp [answer?_eq, hd, hr.startup, hroom] at hok
  have hf : r.source.failure = none := by
    cases hf : r.source.failure with
    | some e => simp [answer?_eq, hd, hr.startup, hroom, outcome, hf] at hok
    | none => rfl
  simp only [perform_start_eq, hd, hr.startup, hroom, hf]
  refine ⟨⟨hticker, rfl, rfl, ?_, rfl, ?_⟩, ?_⟩ <;>
    simp [Source.size, hr.subscribers, hr.intake, Intake.opened]

def withDropped (n : Nat) (r : Relay) : Relay := { r with hub := r.hub.withDropped n }

theorem perform_withDropped (n : Nat) (r : Relay) (a : Action) :
    (r.withDropped n).perform a = ((r.perform a).1.withDropped n, (r.perform a).2) := by
  cases a with
  | start =>
    have hshut : (r.withDropped n).hub.isShutDown = r.hub.isShutDown := rfl
    have hstartup : (r.withDropped n).hub.startup = r.hub.startup := rfl
    have hroom : (r.withDropped n).hasRoom = r.hasRoom := rfl
    have hsource : (r.withDropped n).source = r.source := rfl
    rw [perform_start_eq, perform_start_eq, hshut, hstartup, hroom, hsource]
    split
    · rfl
    · cases r.source.failure <;> rfl
  | fail e => rfl
  | shutdown => rfl
  | step s =>
    cases s with
    | publish e => simp only [perform, step, withDropped, publish_eq_run, Hub.run_withDropped]
    | take | dispatch | keepalive =>
      have hrunning : (r.hub.withDropped n).isRunning = r.hub.isRunning := rfl
      have hticker : (r.withDropped n).ticker? = r.ticker? := rfl
      simp only [withDropped] at hticker
      simp only [perform, step, withDropped, hrunning, hticker, Hub.perform_withDropped]
      split
      · rfl
      · split <;> rfl
    | register | subscribe | disconnect =>
      simp only [perform, step, withDropped, Hub.Step.isDispatching, Hub.perform_withDropped]
      rfl

theorem taken?_withDropped (n : Nat) (r : Relay) (a : Action) :
    (r.withDropped n).taken? a = r.taken? a := by
  cases a with
  | start | fail | shutdown => rfl
  | step s =>
    cases s with
    | take =>
      have hnext : (r.hub.intake.withDropped n).next?.map (·.1) = r.hub.intake.next?.map (·.1) := by
        cases hw : r.hub.intake.waiting <;> simp [Intake.next?, Intake.withDropped, hw]
      simp only [taken?, withDropped, Hub.withDropped, Hub.isRunning, Hub.taken?, hnext]
      rfl
    | publish | dispatch | register | subscribe | disconnect | keepalive => rfl

-- How many batches were dropped is of no consequence.
theorem run_withDropped (n : Nat) (r : Relay) (acts : List Action) :
    (r.withDropped n).taken acts = r.taken acts ∧ (r.withDropped n).log acts = r.log acts := by
  induction acts generalizing r with
  | nil => exact ⟨rfl, rfl⟩
  | cons a acts ih =>
    obtain ⟨htaken, hlog⟩ := ih (r.perform a).1
    simp only [taken, collect, log] at htaken ⊢
    simp only [perform_withDropped, taken?_withDropped, htaken, hlog, and_self]

theorem IsUp.perform_of_dropped {r : Relay} (hr : r.IsUp) {e : ClientEvent} {b : Batch}
    (he : e.batch? = some b) (hfull : ¬r.hub.intake.waiting.length < r.hub.settings.queueCapacity) :
    r.perform (.step (.publish e)) = (r.withDropped 1, []) := by
  have hoffer : r.hub.intake.offer r.hub.settings.queueCapacity b =
      r.hub.intake.withDropped 1 := by
    simp [Intake.offer, hr.isOpen, hfull, Intake.withDropped]
  simp only [Relay.perform, hr.step_eq, Hub.perform_publish_eq, he, Option.elim_some, hoffer]
  rfl

-- A batch that is dropped is never turned to: without it the run goes on in the same way.
theorem IsUp.run_of_dropped {r : Relay} (hr : r.IsUp) {e : ClientEvent} {b : Batch}
    (he : e.batch? = some b) (hdropped : r.dropped? (.step (.publish e)) = some b)
    (acts : List Action) :
    r.taken (.step (.publish e) :: acts) = r.taken acts ∧
      r.log (.step (.publish e) :: acts) = r.log acts := by
  have hfull : ¬r.hub.intake.waiting.length < r.hub.settings.queueCapacity := by
    intro hlt
    rw [hr.dropped?_publish he, if_pos hlt] at hdropped
    cases hdropped
  have hnone : r.taken? (.step (.publish e)) = none := by simp [taken?, Hub.taken?]
  obtain ⟨htaken, hlog⟩ := r.run_withDropped 1 acts
  simp only [taken, collect, log] at htaken ⊢
  simp only [hnone, hr.perform_of_dropped he hfull, htaken, hlog]
  exact ⟨rfl, rfl⟩

-- From the first successful start until a shutdown, whatever else happens, if there is a period for
-- the pings and the clock reaches the end of the first one. What the hub turns to is the beginning of
-- what it received, in the same order and each once. It drops a batch exactly when as many that it
-- received still wait as there is room for, and such a batch is never turned to. Nothing but batches
-- counts, and every batch counts either as received or as dropped.
theorem batches_in_order {host : Host} {clock : Clock} {firstTurn : Nat} {settings : HubSettings}
    {before after : List Action} {r : Relay} (hhost : host.Serves clock)
    (hperiod : settings.keepalive ≠ 0)
    (hreached : clock.secondAt (firstTurn + settings.keepalive) ≤ clock.lastSecond)
    (hfirst : ∀ a ∈ before, a.isStart = false)
    (hok : ((new host firstTurn settings).run before).answer? = some (.ok ()))
    (hr : r = (new host firstTurn settings).run (before ++ [.start]))
    (hafter : ∀ a ∈ after, a.isShutdown = false) :
    r.received after = r.taken after ++ (r.run after).hub.intake.waiting ∧
      (∀ xs e b ys, after = xs ++ .step (.publish e) :: ys → e.batch? = some b →
        ((r.run xs).dropped? (.step (.publish e)) = some b ↔
          (r.received xs).length = (r.taken xs).length + settings.queueCapacity) ∧
        ((r.run xs).received? (.step (.publish e)) = some b ↔
          (r.received xs).length < (r.taken xs).length + settings.queueCapacity) ∧
        ((r.run xs).dropped? (.step (.publish e)) = some b →
          r.taken after = r.taken (xs ++ ys) ∧ r.log after = r.log (xs ++ ys))) ∧
      (∀ e, e.batch? = none →
        (r.run after).perform (.step (.publish e)) = (r.run after, [])) ∧
      (r.run after).hub.intake.received = (r.received after).length ∧
      (r.run after).hub.intake.dropped = (r.dropped after).length ∧
      (r.run after).hub.intake.received + (r.run after).hub.intake.dropped =
        (after.filterMap Action.batch?).length ∧
      (r.taken after).length ≤ (r.run after).hub.intake.received ∧
      (r.run after).hub.intake.received ≤ (r.taken after).length + settings.queueCapacity := by
  have hfresh : (new host firstTurn settings).IsFresh := ⟨rfl, rfl, rfl, rfl⟩
  have hticker : (new host firstTurn settings).ticker?.isSome = true :=
    hhost.isSome_firstTicker?_iff.mpr ⟨Nat.pos_of_ne_zero hperiod, hreached⟩
  rw [← (run_setting _ before).ticker?_eq] at hticker
  obtain ⟨hup, hempty⟩ := (hfresh.run hfirst).perform_start hticker hok
  rw [← run_concat, ← hr] at hup hempty
  have hsettings : r.hub.settings = settings := by
    rw [hr]
    exact (run_setting _ _).settings
  -- The first clause at every moment, not only at the end.
  have hwaiting : ∀ acts, (∀ a ∈ acts, a.isShutdown = false) →
      r.received acts = r.taken acts ++ (r.run acts).hub.intake.waiting := by
    intro acts hacts
    have hw := (hup.run hacts).2.waiting
    rwa [hempty, List.nil_append] at hw
  obtain ⟨hup', hmoves⟩ := hup.run hafter
  have hreceived : (r.run after).hub.intake.received = (r.received after).length := by
    rw [hmoves.received, hempty, Nat.zero_add]
  have hdropped : (r.run after).hub.intake.dropped = (r.dropped after).length := by
    rw [hmoves.dropped, hempty, Nat.zero_add]
  have hlength := congrArg List.length (hwaiting after hafter)
  have hroom := hup'.room
  rw [List.length_append] at hlength
  rw [(r.run_setting after).settings, hsettings] at hroom
  refine ⟨hwaiting after hafter, ?_, ?_, hreceived, hdropped, ?_, ?_, ?_⟩
  · rintro xs e b ys rfl he
    have hxs : ∀ a ∈ xs, a.isShutdown = false := fun a ha => hafter a (by simp [ha])
    obtain ⟨hupxs, hmovesxs⟩ := hup.run hxs
    have hlengthxs := congrArg List.length (hwaiting xs hxs)
    have hroomxs := hupxs.room
    rw [List.length_append] at hlengthxs
    have hsettingsxs := (r.run_setting xs).settings.trans hsettings
    rw [hsettingsxs] at hroomxs
    refine ⟨?_, ?_, fun hd => ?_⟩
    · rw [hupxs.dropped?_publish he, hsettingsxs]
      split <;> simp <;> omega
    · rw [hupxs.received?_publish he, hsettingsxs]
      split <;> simp <;> omega
    · obtain ⟨htaken, hlog⟩ := hupxs.run_of_dropped he hd ys
      simp only [taken] at htaken ⊢
      rw [collect_append, collect_append, htaken, log_append, log_append, hlog]
      exact ⟨rfl, rfl⟩
  · intro e he
    simp only [perform, hup'.step_eq, Hub.perform_publish_eq, he, Option.elim_none]
  · rw [hreceived, hdropped, hmoves.published]
  · omega
  · omega

-- There is room for one batch: the second one is dropped, and the third one comes after the
-- dispatcher turned to the first.
def crowding : List Action :=
  [.step (.publish (.synced { leftRooms := ["!a"] })),
    .step (.publish (.synced { leftRooms := ["!b"] })), .step .take,
    .step (.publish (.other "typing")), .step (.publish (.synced { leftRooms := ["!c"] }))]

theorem crowding_batches_in_order :
    let settings : HubSettings := { queueCapacity := 1 }
    let r := (ofSettings settings).run [.start]
    ((Host.ofClock {}).Serves {} ∧ settings.keepalive ≠ 0 ∧
        Clock.secondAt {} (0 + settings.keepalive) ≤ Clock.lastSecond {} ∧
        ((ofSettings settings).run []).answer? = some (.ok ()) ∧
        ∀ a ∈ crowding, a.isShutdown = false) ∧
      (r.received crowding).map Batch.leftRooms = [["!a"], ["!c"]] ∧
      (r.dropped crowding).map Batch.leftRooms = [["!b"]] ∧
      r.received crowding = r.taken crowding ++ (r.run crowding).hub.intake.waiting ∧
      (r.run crowding).hub.intake.received + (r.run crowding).hub.intake.dropped =
        (crowding.filterMap Action.batch?).length := by
  intro settings r
  have hhost := Host.ofClock_serves {}
  have hperiod : settings.keepalive ≠ 0 := by decide
  have hreached : Clock.secondAt {} (0 + settings.keepalive) ≤ Clock.lastSecond {} := by decide
  have hok : ((ofSettings settings).run []).answer? = some (.ok ()) := rfl
  have hcrowding : ∀ a ∈ crowding, a.isShutdown = false := by decide
  have hfirst : ∀ a ∈ ([] : List Action), a.isStart = false := by simp
  obtain ⟨hwaiting, -, -, -, -, hcount, -, -⟩ :=
    batches_in_order hhost hperiod hreached hfirst hok rfl hcrowding
  exact ⟨⟨hhost, hperiod, hreached, hok, hcrowding⟩, by decide, by decide, hwaiting, hcount⟩

-- Without a period the dispatcher ends when it gets its first turn. A batch that is published after
-- that is neither received nor dropped.
theorem batches_uncounted_without_period :
    ¬∀ (settings : HubSettings) (before after : List Action), 1 ≤ settings.queueCapacity →
      (∀ a ∈ before, a.isStart = false) →
      ((ofSettings settings).run before).answer? = some (.ok ()) →
      (∀ a ∈ after, a.isShutdown = false) →
      let r := (ofSettings settings).run (before ++ .start :: after)
      r.hub.intake.received + r.hub.intake.dropped = (after.filterMap Action.batch?).length := by
  intro h
  have hcount := h { keepalive := 0 } []
    [.step .take, .step (.publish (.synced { leftRooms := ["!a"] }))] (by decide) (by simp) rfl
    (by decide)
  exact absurd hcount (by decide)

end Relay

end ChatRelay

import ChatRelay.Proofs.Hub.Announcement

namespace ChatRelay.Hub

inductive Step where
  | publish (e : ClientEvent)
  -- The dispatcher turns to the oldest batch that waits, if it is done with the one before.
  | take
  -- The dispatcher announces the next change of its batch.
  | dispatch (o : Occasion)
  | register (id : ConnectionId)
  | subscribe (id : ConnectionId) (s : Subscription)
  | disconnect (id : ConnectionId)
  | keepalive (write : Writes)

-- What is sent on a connection, and whether its sink took it.
inductive Sent where
  | change (m : ChangeMessage) (taken : Bool)
  | ping (taken : Bool)
  | close

abbrev Log := List (ConnectionId × Sent)

def Step.registers (id : ConnectionId) : Step → Bool
  | register other => other = id
  | _ => false

-- What a dispatch is given, whether there is anything to announce or not.
def Step.occasion? : Step → Option Occasion
  | dispatch o => some o
  | _ => none

def Sent.failed : Sent → Bool
  | change _ taken | ping taken => !taken
  | close => false

-- The frame of a change that the sink took.
def Sent.accepted? : Sent → Option ChangeMessage
  | change m true => some m
  | _ => none

def Dispatched.log (write : Writes) (d : Dispatched) : Log :=
  (d.announcement.offers.map fun (id, m) => (id, .change m (write id m.frame).toBool))
    ++ d.closed.map (·, .close)

def pingLog (write : Writes) (h : Hub) (closed : List ConnectionId) : Log :=
  (h.pings.map fun (id, frame) => (id, .ping (write id frame).toBool)) ++ closed.map (·, .close)

def perform (h : Hub) : Step → Hub × Log
  | .publish e => (h.receive e, [])
  | .take => (if h.pending.isEmpty then h.nextBatch?.getD h else h, [])
  | .dispatch o =>
    match h.pending with
    | [] => (h, [])
    | c :: rest =>
      let (next, dispatched) :=
        { h with pending := rest }.dispatch o.lookup o.now o.time o.write c
      (next, dispatched.log o.write)
  | .register id => (h.register id, [])
  | .subscribe id s => ((h.setSubscription id s).1, [])
  | .disconnect id =>
    match h.drop id with
    | (next, true) => (next, [(id, .close)])
    | (next, false) => (next, [])
  | .keepalive write =>
    let (next, closed) := h.keepalive write
    (next, h.pingLog write closed)

def run (h : Hub) (steps : List Step) : Hub := steps.foldl (fun h s => (h.perform s).1) h

def log (h : Hub) : List Step → Log
  | [] => []
  | s :: rest => (h.perform s).2 ++ log (h.perform s).1 rest

-- The change that a step announces.
def dispatch? (h : Hub) : Step → Option Dispatch
  | .dispatch o =>
    match h.pending with
    | [] => none
    | change :: rest => some { hub := { h with pending := rest }, change, occasion := o }
  | _ => none

def dispatches (h : Hub) : List Step → List Dispatch
  | [] => []
  | s :: rest => (h.dispatch? s).toList ++ dispatches (h.perform s).1 rest

-- The batch that a step turns to.
def taken? (h : Hub) : Step → Option Batch
  | .take => if h.pending.isEmpty then h.intake.next?.map (·.1) else none
  | _ => none

def taken (h : Hub) : List Step → List Batch
  | [] => []
  | s :: rest => (h.taken? s).toList ++ taken (h.perform s).1 rest

def sentTo (id : ConnectionId) (log : Log) : List Sent :=
  log.filterMap fun e => if e.1 = id then some e.2 else none

-- The frames of changes that the sink of a connection took.
def accepted (id : ConnectionId) (log : Log) : List ChangeMessage :=
  (sentTo id log).filterMap Sent.accepted?

-- A hub with these settings right after it was started on a source that lets it subscribe.
def started (settings : HubSettings) : Hub := (launch () { settings } ({} : Source Unit)).1

theorem run_nil (h : Hub) : h.run [] = h := rfl

theorem run_cons (h : Hub) (s : Step) (steps : List Step) :
    h.run (s :: steps) = (h.perform s).1.run steps := rfl

theorem run_append (h : Hub) (xs ys : List Step) : h.run (xs ++ ys) = (h.run xs).run ys :=
  List.foldl_append

theorem run_concat (h : Hub) (steps : List Step) (s : Step) :
    h.run (steps ++ [s]) = ((h.run steps).perform s).1 := by
  rw [run_append, run_cons, run_nil]

theorem log_append (h : Hub) (xs ys : List Step) :
    h.log (xs ++ ys) = h.log xs ++ (h.run xs).log ys := by
  induction xs generalizing h with
  | nil => rfl
  | cons s xs ih => simp [log, run_cons, ih]

theorem dispatches_append (h : Hub) (xs ys : List Step) :
    h.dispatches (xs ++ ys) = h.dispatches xs ++ (h.run xs).dispatches ys := by
  induction xs generalizing h with
  | nil => rfl
  | cons s xs ih => simp [dispatches, run_cons, ih]

-- What is announced somewhere in a run is announced by one of its steps.
theorem dispatches_split {h : Hub} {steps : List Step} {before after : List Dispatch}
    {d : Dispatch} (hd : h.dispatches steps = before ++ d :: after) :
    ∃ early s late, steps = early ++ s :: late ∧ (h.run early).dispatch? s = some d ∧
      h.dispatches early = before ∧ (h.run (early ++ [s])).dispatches late = after := by
  induction steps generalizing h before with
  | nil => simp [dispatches] at hd
  | cons s steps ih =>
    simp only [dispatches] at hd
    cases hs : h.dispatch? s with
    | none =>
      simp only [hs, Option.toList_none, List.nil_append] at hd
      obtain ⟨early, s', late, rfl, hd', rfl, rfl⟩ := ih hd
      exact ⟨s :: early, s', late, rfl, hd', by simp [dispatches, hs], rfl⟩
    | some d' =>
      simp only [hs, Option.toList_some, List.singleton_append] at hd
      cases before with
      | nil =>
        obtain ⟨rfl, rfl⟩ := List.cons.inj hd
        exact ⟨[], s, steps, rfl, hs, rfl, rfl⟩
      | cons first before =>
        obtain ⟨rfl, hrest⟩ := List.cons.inj hd
        obtain ⟨early, s', late, rfl, hd', rfl, rfl⟩ := ih hrest
        exact ⟨s :: early, s', late, rfl, hd', by simp [dispatches, hs], rfl⟩

-- What a step does to the hub when it announces a change.
theorem perform_of_dispatch? {h : Hub} {s : Step} {d : Dispatch} (hd : h.dispatch? s = some d) :
    h.perform s = (d.result.1, d.result.2.log d.occasion.write) := by
  cases s with
  | dispatch o =>
    unfold dispatch? at hd
    unfold perform
    cases hp : h.pending with
    | nil => simp [hp] at hd
    | cons c rest =>
      simp only [hp, Option.some.injEq] at hd ⊢
      subst hd
      rfl
  | publish | take | register | subscribe | disconnect | keepalive => simp [dispatch?] at hd

theorem perform_hub_of_dispatch? {h : Hub} {s : Step} {d : Dispatch}
    (hd : h.dispatch? s = some d) : (h.perform s).1 = d.result.1 := by
  rw [perform_of_dispatch? hd]

-- The hub at a dispatch is the hub before the step, less the change.
theorem dispatch?_hub {h : Hub} {s : Step} {d : Dispatch} (hd : h.dispatch? s = some d) :
    h = { d.hub with pending := d.change :: d.hub.pending } ∧ s = .dispatch d.occasion := by
  cases s with
  | dispatch o =>
    unfold dispatch? at hd
    cases hp : h.pending with
    | nil => simp [hp] at hd
    | cons c rest =>
      simp only [hp, Option.some.injEq] at hd
      subst hd
      exact ⟨by simp [← hp], rfl⟩
  | publish | take | register | subscribe | disconnect | keepalive => simp [dispatch?] at hd

theorem dispatch_mem_of_mem_dispatches {h : Hub} {steps : List Step} {d : Dispatch}
    (hd : d ∈ h.dispatches steps) : .dispatch d.occasion ∈ steps := by
  obtain ⟨before, after, hsplit⟩ := List.append_of_mem hd
  obtain ⟨early, s, late, rfl, hd, -, -⟩ := dispatches_split hsplit
  obtain ⟨-, rfl⟩ := dispatch?_hub hd
  simp

theorem sentTo_append (id : ConnectionId) (xs ys : Log) :
    sentTo id (xs ++ ys) = sentTo id xs ++ sentTo id ys :=
  List.filterMap_append

-- Of frames for different connections one gets at most its own.
theorem sentTo_map (id : ConnectionId) (f : ConnectionId → Sent) {ids : List ConnectionId}
    (hnodup : ids.Nodup) :
    sentTo id (ids.map fun other => (other, f other)) = if id ∈ ids then [f id] else [] := by
  induction ids with
  | nil => simp [sentTo]
  | cons other rest ih =>
    obtain ⟨hother, hrest⟩ := List.nodup_cons.mp hnodup
    have ih := ih hrest
    simp only [sentTo, List.map_cons, List.filterMap_cons] at ih ⊢
    by_cases h : other = id
    · subst h
      simp [ih, hother]
    · simp [ih, h, Ne.symm h]

namespace Dispatch

theorem lost_nodup (d : Dispatch) : d.lost.Nodup :=
  (d.hub.registry.matching_nodup d.change.chatId).filter _

-- What one connection is sent for a change: its own frame, and the close if that failed.
theorem sentTo_result (d : Dispatch) (id : ConnectionId) :
    sentTo id (d.result.2.log d.occasion.write) =
      if d.offers id then
        if d.succeeds id then [.change (d.message id) true]
        else [.change (d.message id) false, .close]
      else [] := by
  have hn : d.targets.Nodup := d.hub.registry.matching_nodup d.change.chatId
  unfold Dispatched.log
  rw [result_announcement, result_closed, announcement_offers, sentTo_append,
    sentTo_map id (fun _ => Sent.close) d.lost_nodup]
  simp only [mem_lost_iff, loses]
  cases ha : d.isAnnounced with
  | false => simp [offers_eq, ha, sentTo]
  | true =>
    have hm := sentTo_map id (fun id => Sent.change (d.message id)
      (d.occasion.write id (d.message id).frame).toBool) hn
    simp only [if_true, List.map_map, Function.comp_def]
    rw [hm]
    by_cases hl : d.listens id = true <;> by_cases hw : d.succeeds id = true <;>
      simp_all [mem_targets_iff, offers_eq, succeeds]

end Dispatch

-- The connections that do not answer a round of pings.
def silent (h : Hub) (write : Writes) : List ConnectionId :=
  h.registry.ids.filter fun id => !(write id .ping).toBool

theorem keepalive_eq (h : Hub) (write : Writes) :
    h.keepalive write =
      ({ h with registry := h.registry.unregisterAll (h.silent write) }, h.silent write) := by
  have hf : failures (h.pings.map fun (id, frame) => (id, write id frame)) = h.silent write := by
    simp [failures, pings, silent, List.filter_map, Function.comp_def]
  have hn : ((h.pings.map fun (id, frame) => (id, write id frame)).map (·.1)).Nodup := by
    simp only [pings, List.map_map, Function.comp_def, List.map_id']
    exact h.registry.nodup
  have hr : (h.silent write).filter h.registry.contains = h.silent write := by
    rw [List.filter_eq_self]
    intro id hid
    exact Registry.mem_ids_iff.mp (List.mem_filter.mp hid).1
  refine Prod.ext ?_ ?_
  · simp only [keepalive, round, settle_hub, hf]
    simp
  · simp only [keepalive, round]
    rw [settle_closed _ _ _ hn, hf, hr]

theorem sentTo_pingLog (h : Hub) (write : Writes) (id : ConnectionId) :
    sentTo id (h.pingLog write (h.silent write)) =
      if h.registry.contains id then
        if (write id .ping).toBool then [.ping true] else [.ping false, .close]
      else [] := by
  have hn : h.registry.ids.Nodup := h.registry.nodup
  have hm := sentTo_map id (fun id => Sent.ping (write id .ping).toBool) hn
  have hs : (h.silent write).Nodup := hn.filter _
  unfold pingLog
  rw [sentTo_append, sentTo_map id (fun _ => Sent.close) hs]
  simp only [pings, List.map_map, Function.comp_def] at hm ⊢
  rw [hm]
  simp only [silent, List.mem_filter, Registry.mem_ids_iff]
  by_cases hc : h.registry.contains id = true <;> by_cases hw : (write id .ping).toBool = true <;>
    simp [hc, hw]

theorem perform_publish_eq (h : Hub) (e : ClientEvent) :
    h.perform (.publish e) = ({ h with
      intake := e.batch?.elim h.intake fun b => h.intake.offer h.settings.queueCapacity b }, []) := by
  cases he : e.batch? <;> simp [perform, receive, he]

-- A dispatcher that is done with its batch turns to the next one.
theorem perform_take_eq (h : Hub) :
    h.perform .take =
      match h.pending, h.intake.waiting with
      | [], b :: rest =>
        ({ h with intake := { h.intake with waiting := rest }, pending := b.changes }, [])
      | _, _ => (h, []) := by
  cases hp : h.pending <;> cases hw : h.intake.waiting <;>
    simp [perform, nextBatch?, Intake.next?, hp, hw]

theorem perform_publish (h : Hub) (e : ClientEvent) :
    ∃ intake, h.perform (.publish e) = ({ h with intake }, []) :=
  ⟨_, h.perform_publish_eq e⟩

theorem perform_take (h : Hub) :
    ∃ intake pending, h.perform .take = ({ h with intake, pending }, []) := by
  rw [perform_take_eq]
  split
  · exact ⟨_, _, rfl⟩
  · exact ⟨h.intake, h.pending, rfl⟩

-- With no change left there is nothing to announce.
theorem perform_of_dispatch?_none {h : Hub} {o : Occasion}
    (hd : h.dispatch? (.dispatch o) = none) : h.perform (.dispatch o) = (h, []) := by
  cases hp : h.pending with
  | nil => simp [perform, hp]
  | cons c rest => simp [dispatch?, hp] at hd

-- Where every write succeeds, an announcement leaves the connections as they are.
theorem perform_of_writes {o : Occasion} (hw : ∀ id frame, (o.write id frame).toBool = true)
    (h : Hub) : ∃ sightings sequences suppressed delivered, (h.perform (.dispatch o)).1 =
      { h with pending := h.pending.tail, sightings, sequences, suppressed, delivered } := by
  cases hd : h.dispatch? (.dispatch o) with
  | some d =>
    obtain ⟨hhub, hocc⟩ := dispatch?_hub hd
    obtain rfl := Step.dispatch.inj hocc
    obtain ⟨sightings, sequences, suppressed, delivered, hresult⟩ :=
      Dispatch.result_of_succeeds fun id => hw id (d.message id).frame
    refine ⟨sightings, sequences, suppressed, delivered, ?_⟩
    rw [perform_hub_of_dispatch? hd, hresult, hhub]
    rfl
  | none =>
    cases hp : h.pending with
    | nil => exact ⟨_, _, _, _, by rw [perform_of_dispatch?_none hd, List.tail_nil, ← hp]⟩
    | cons c rest => simp [dispatch?, hp] at hd

theorem perform_disconnect (h : Hub) (id : ConnectionId) :
    h.perform (.disconnect id) =
      ({ h with registry := h.registry.unregister id },
        if h.registry.contains id then [(id, .close)] else []) := by
  have hdrop : h.drop id =
    ({ h with registry := h.registry.unregister id }, h.registry.contains id) := rfl
  simp only [perform, hdrop]
  cases h.registry.contains id <;> rfl

theorem perform_keepalive (h : Hub) (write : Writes) :
    h.perform (.keepalive write) =
      ({ h with registry := h.registry.unregisterAll (h.silent write) },
        h.pingLog write (h.silent write)) := by
  simp only [perform, keepalive_eq]

-- What a connection wants to hear about after a step.
def subscriptionAfter (h : Hub) (id : ConnectionId) : Step → Option Subscription
  | .publish _ | .take => h.registry.subscription? id
  | .dispatch o =>
    match h.dispatch? (.dispatch o) with
    | some d => if d.loses id then none else h.registry.subscription? id
    | none => h.registry.subscription? id
  | .register other => if id = other then some .nothing else h.registry.subscription? id
  | .subscribe other s =>
    if id = other then (h.registry.subscription? id).map fun _ => s
    else h.registry.subscription? id
  | .disconnect other => if id = other then none else h.registry.subscription? id
  | .keepalive write =>
    if (write id .ping).toBool then h.registry.subscription? id else none

theorem perform_subscription? (h : Hub) (s : Step) (id : ConnectionId) :
    (h.perform s).1.registry.subscription? id = h.subscriptionAfter id s := by
  cases s with
  | publish e =>
    obtain ⟨intake, hp⟩ := h.perform_publish e
    rw [hp]; rfl
  | take =>
    obtain ⟨intake, pending, hp⟩ := h.perform_take
    rw [hp]; rfl
  | dispatch o =>
    cases hd : h.dispatch? (.dispatch o) with
    | some d =>
      have hhub := (dispatch?_hub hd).1
      rw [perform_of_dispatch? hd]
      simp only [subscriptionAfter, hd, Dispatch.result_subscription?]
      rw [hhub]
    | none => simp [perform_of_dispatch?_none hd, subscriptionAfter, hd]
  | register other => exact h.registry.subscription?_register other id
  | subscribe other s => exact h.registry.subscription?_setSubscription other id s
  | disconnect other =>
    rw [perform_disconnect]
    exact h.registry.subscription?_unregister other id
  | keepalive write =>
    simp only [perform_keepalive, subscriptionAfter, Registry.subscription?_unregisterAll,
      silent, List.mem_filter, Registry.mem_ids_iff]
    by_cases hw : (write id .ping).toBool = true
    · simp [hw]
    · cases hs : h.registry.subscription? id <;> simp [hw, hs, Registry.contains]

-- What a connection is sent in a step.
def sentIn (h : Hub) (id : ConnectionId) : Step → List Sent
  | .publish _ | .take | .register _ | .subscribe _ _ => []
  | .dispatch o =>
    match h.dispatch? (.dispatch o) with
    | some d =>
      if d.offers id then
        if d.succeeds id then [.change (d.message id) true]
        else [.change (d.message id) false, .close]
      else []
    | none => []
  | .disconnect other => if id = other ∧ h.registry.contains id then [.close] else []
  | .keepalive write =>
    if h.registry.contains id then
      if (write id .ping).toBool then [.ping true] else [.ping false, .close]
    else []

theorem sentTo_perform (h : Hub) (s : Step) (id : ConnectionId) :
    sentTo id (h.perform s).2 = h.sentIn id s := by
  cases s with
  | publish | take | register | subscribe => rfl
  | dispatch o =>
    cases hd : h.dispatch? (.dispatch o) with
    | some d =>
      rw [perform_of_dispatch? hd]
      simp only [sentIn, hd]
      exact d.sentTo_result id
    | none => simp [perform_of_dispatch?_none hd, sentIn, hd, sentTo]
  | disconnect other =>
    simp only [perform_disconnect, sentIn]
    by_cases ho : id = other
    · subst ho
      cases hc : h.registry.contains id <;> simp [sentTo]
    · cases hc : h.registry.contains other <;> simp [sentTo, ho, Ne.symm ho]
  | keepalive write =>
    rw [perform_keepalive]
    exact h.sentTo_pingLog write id

-- Only an announcement gives out numbers or counts as a sighting.
theorem perform_kept {h : Hub} {s : Step} (hd : h.dispatch? s = none) :
    (h.perform s).1.sequences = h.sequences ∧ (h.perform s).1.sightings = h.sightings := by
  cases s with
  | publish e =>
    obtain ⟨intake, hp⟩ := h.perform_publish e
    rw [hp]
    exact ⟨rfl, rfl⟩
  | take =>
    obtain ⟨intake, pending, hp⟩ := h.perform_take
    rw [hp]
    exact ⟨rfl, rfl⟩
  | dispatch o =>
    rw [perform_of_dispatch?_none hd]
    exact ⟨rfl, rfl⟩
  | register | subscribe => exact ⟨rfl, rfl⟩
  | disconnect other =>
    rw [perform_disconnect]
    exact ⟨rfl, rfl⟩
  | keepalive write =>
    rw [perform_keepalive]
    exact ⟨rfl, rfl⟩

-- No step starts the hub, stops it or changes its settings.
theorem perform_frame (h : Hub) (s : Step) :
    (h.perform s).1.settings = h.settings ∧ (h.perform s).1.startup = h.startup ∧
      (h.perform s).1.handle = h.handle ∧ (h.perform s).1.isShutDown = h.isShutDown := by
  cases s with
  | publish e =>
    obtain ⟨intake, hp⟩ := h.perform_publish e
    simp only [hp, and_self]
  | take =>
    obtain ⟨intake, pending, hp⟩ := h.perform_take
    simp only [hp, and_self]
  | dispatch o =>
    cases hd : h.dispatch? (.dispatch o) with
    | some d =>
      have hhub := (dispatch?_hub hd).1
      rw [perform_hub_of_dispatch? hd, Dispatch.result_hub, hhub]
      exact ⟨rfl, rfl, rfl, rfl⟩
    | none => simp only [perform_of_dispatch?_none hd, and_self]
  | register | subscribe => exact ⟨rfl, rfl, rfl, rfl⟩
  | disconnect other => simp only [perform_disconnect, and_self]
  | keepalive write => simp only [perform_keepalive, and_self]

@[simp] theorem perform_settings (h : Hub) (s : Step) :
    (h.perform s).1.settings = h.settings :=
  (h.perform_frame s).1

theorem run_frame (h : Hub) (steps : List Step) :
    (h.run steps).settings = h.settings ∧ (h.run steps).startup = h.startup ∧
      (h.run steps).handle = h.handle ∧ (h.run steps).isShutDown = h.isShutDown := by
  induction steps generalizing h with
  | nil => exact ⟨rfl, rfl, rfl, rfl⟩
  | cons s steps ih =>
    obtain ⟨hsettings, hstartup, hhandle, hshut⟩ := h.perform_frame s
    obtain ⟨hsettings', hstartup', hhandle', hshut'⟩ := ih (h.perform s).1
    rw [run_cons]
    exact ⟨hsettings'.trans hsettings, hstartup'.trans hstartup, hhandle'.trans hhandle,
      hshut'.trans hshut⟩

@[simp] theorem run_settings (h : Hub) (steps : List Step) :
    (h.run steps).settings = h.settings :=
  (h.run_frame steps).1

-- What is remembered changes by a sighting alone.
theorem perform_sightings (h : Hub) (s : Step) :
    ((h.perform s).1.sightings = h.sightings ∧
      ∀ d, h.dispatch? s = some d → d.isSighted = false) ∨
    ∃ d, h.dispatch? s = some d ∧ d.isSighted = true ∧ (h.perform s).1.sightings =
      (h.sightings.sight h.settings.sightings d.occasion.now d.fingerprint).1 := by
  cases hd : h.dispatch? s with
  | none => exact .inl ⟨(perform_kept hd).2, fun d hd' => by cases hd'⟩
  | some d =>
    have hhub := (dispatch?_hub hd).1
    rw [perform_hub_of_dispatch? hd, Dispatch.result_sightings]
    cases hs : d.isSighted with
    | false =>
      refine .inl ⟨?_, fun d' hd' => ?_⟩
      · rw [hhub]
        rfl
      · obtain rfl := Option.some.inj hd'
        exact hs
    | true =>
      refine .inr ⟨d, rfl, hs, ?_⟩
      rw [hhub]
      rfl

theorem perform_current (h : Hub) (s : Step) (id : ConnectionId) :
    (h.perform s).1.sequences.current id =
      h.sequences.current id + if (h.dispatch? s).any (·.offers id) then 1 else 0 := by
  cases hd : h.dispatch? s with
  | some d =>
    rw [perform_of_dispatch? hd, (dispatch?_hub hd).1]
    simp [Dispatch.result_current]
  | none => simp [perform_kept hd]

theorem sentTo_log_cons (h : Hub) (s : Step) (steps : List Step) (id : ConnectionId) :
    sentTo id (h.log (s :: steps)) = h.sentIn id s ++ sentTo id ((h.perform s).1.log steps) := by
  rw [log, sentTo_append, sentTo_perform]

theorem mem_sentTo_iff {id : ConnectionId} {x : Sent} {log : Log} :
    x ∈ sentTo id log ↔ (id, x) ∈ log := by
  simp only [sentTo, List.mem_filterMap]
  constructor
  · rintro ⟨⟨other, y⟩, hm, hy⟩
    split at hy
    · next heq =>
      obtain rfl := Option.some.inj hy
      obtain rfl : other = id := heq
      exact hm
    · cases hy
  · intro hm
    exact ⟨_, hm, if_pos rfl⟩

theorem change_mem_sentIn {h : Hub} {s : Step} {id : ConnectionId} {m : ChangeMessage}
    {taken : Bool} (hm : .change m taken ∈ h.sentIn id s) :
    ∃ d, h.dispatch? s = some d ∧ d.offers id = true ∧ m = d.message id := by
  cases s with
  | publish | take | register | subscribe => cases hm
  | dispatch o =>
    simp only [sentIn] at hm
    cases hd : h.dispatch? (.dispatch o) with
    | none => simp [hd] at hm
    | some d =>
      simp only [hd] at hm
      refine ⟨d, rfl, ?_⟩
      by_cases ho : d.offers id = true
      · refine ⟨ho, ?_⟩
        by_cases hw : d.succeeds id = true
        · simp only [ho, hw, if_true, List.mem_singleton, Sent.change.injEq] at hm
          exact hm.1
        · have hboth : m = d.message id ∧ taken = false := by simpa [ho, hw] using hm
          exact hboth.1
      · simp [ho] at hm
  | disconnect other =>
    simp only [sentIn] at hm
    split at hm <;> simp at hm
  | keepalive write =>
    simp only [sentIn] at hm
    split at hm
    · split at hm <;> simp at hm
    · cases hm

-- Every frame of a change was offered at one of the dispatches.
theorem change_mem_log {h : Hub} {steps : List Step} {id : ConnectionId} {m : ChangeMessage}
    {taken : Bool} (hm : (id, .change m taken) ∈ h.log steps) :
    ∃ before s after d, steps = before ++ s :: after ∧ (h.run before).dispatch? s = some d ∧
      d.offers id = true ∧ m = d.message id := by
  induction steps generalizing h with
  | nil => cases hm
  | cons s steps ih =>
    rw [← mem_sentTo_iff, sentTo_log_cons, List.mem_append] at hm
    rcases hm with hm | hm
    · obtain ⟨d, hd, ho, rfl⟩ := change_mem_sentIn hm
      exact ⟨[], s, steps, d, rfl, hd, ho, rfl⟩
    · obtain ⟨before, s', after, d, rfl, hd, ho, rfl⟩ := ih (mem_sentTo_iff.mp hm)
      exact ⟨s :: before, s', after, d, rfl, hd, ho, rfl⟩

end ChatRelay.Hub

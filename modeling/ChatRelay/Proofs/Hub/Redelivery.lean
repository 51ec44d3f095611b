import ChatRelay.Proofs.Change.Sightings
import ChatRelay.Proofs.Hub.Delivery
import ChatRelay.Proofs.Store.Idempotence
import ChatRelay.Proofs.Store.Reactions

namespace ChatRelay.Hub

-- Registration counts: it sets the subscription to nothing.
def Step.setsSubscription : Step → Bool
  | register _ | subscribe _ _ => true
  | _ => false

theorem subscription?_of_perform {h : Hub} {s : Step} (hs : s.setsSubscription = false)
    {id : ConnectionId} {sub : Subscription}
    (hsub : (h.perform s).1.registry.subscription? id = some sub) :
    h.registry.subscription? id = some sub := by
  rw [perform_subscription?] at hsub
  cases s with
  | publish | take => exact hsub
  | register | subscribe => cases hs
  | dispatch o =>
    simp only [subscriptionAfter] at hsub
    cases hd : h.dispatch? (.dispatch o) with
    | none => simpa [hd] using hsub
    | some d =>
      simp only [hd, Option.ite_none_left_eq_some] at hsub
      exact hsub.2
  | disconnect other =>
    simp only [subscriptionAfter, Option.ite_none_left_eq_some] at hsub
    exact hsub.2
  | keepalive write =>
    simp only [subscriptionAfter, Option.ite_none_right_eq_some] at hsub
    exact hsub.2

theorem subscription?_of_run {h : Hub} {steps : List Step}
    (hsteps : ∀ s ∈ steps, s.setsSubscription = false) {id : ConnectionId} {sub : Subscription}
    (hsub : (h.run steps).registry.subscription? id = some sub) :
    h.registry.subscription? id = some sub := by
  induction steps generalizing h with
  | nil => exact hsub
  | cons s steps ih =>
    obtain ⟨hs, hrest⟩ := List.forall_mem_cons.mp hsteps
    exact subscription?_of_perform hs (ih hrest hsub)

-- A sighting is remembered, by itself or by a later one, as long as the time since then is not
-- longer than the retention.
theorem remembered_perform {h : Hub} {s : Step} {f : String} {t last : Nat}
    (hclock : ∀ d, h.dispatch? s = some d → t ≤ d.occasion.now ∧ d.occasion.now ≤ last)
    (hshort : last - t ≤ h.settings.sightings.retention)
    (hsighted : ∃ u, h.sightings.latest.get? f = some u ∧ t ≤ u) :
    ∃ u, (h.perform s).1.sightings.latest.get? f = some u ∧ t ≤ u := by
  obtain ⟨u, hu, htu⟩ := hsighted
  rcases h.perform_sightings s with ⟨hsame, -⟩ | ⟨d, hd, -, hsight⟩
  · exact ⟨u, by rw [hsame, hu], htu⟩
  · obtain ⟨hfrom, hto⟩ := hclock d hd
    rw [hsight]
    by_cases hf : f = d.fingerprint
    · subst hf
      exact ⟨d.occasion.now, Sightings.get?_sight_self _, hfrom⟩
    · rcases Sightings.get?_sight_of_ne hf with hkept | ⟨-, v, hv, hold⟩
      · exact ⟨u, hkept.trans hu, htu⟩
      · obtain rfl := Option.some.inj (hu.symm.trans hv)
        omega

theorem remembered_run {h : Hub} {steps : List Step} {f : String} {t last : Nat}
    (hclock : ∀ d ∈ h.dispatches steps, t ≤ d.occasion.now ∧ d.occasion.now ≤ last)
    (hshort : last - t ≤ h.settings.sightings.retention)
    (hsighted : ∃ u, h.sightings.latest.get? f = some u ∧ t ≤ u) :
    ∃ u, (h.run steps).sightings.latest.get? f = some u ∧ t ≤ u := by
  induction steps generalizing h with
  | nil => exact hsighted
  | cons s steps ih =>
    have hthis := remembered_perform (s := s) (fun d hd => hclock d (by simp [dispatches, hd]))
      hshort hsighted
    have hrest : ∀ d ∈ (h.perform s).1.dispatches steps,
        t ≤ d.occasion.now ∧ d.occasion.now ≤ last :=
      fun d hd => hclock d (List.mem_append_right _ hd)
    exact ih hrest (by rwa [perform_settings]) hthis

namespace Dispatch

variable {d d' : Dispatch}

theorem isHydrated_congr (hchange : d'.change = d.change)
    (hlookup : d'.occasion.lookup = d.occasion.lookup) : d'.isHydrated = d.isHydrated := by
  simp only [isHydrated, hchange, hlookup]

theorem fingerprint_congr (hchange : d'.change = d.change)
    (hlookup : d'.occasion.lookup = d.occasion.lookup) : d'.fingerprint = d.fingerprint := by
  simp only [fingerprint, entries, hchange, hlookup]

theorem isSighted_of_listeners (hchange : d'.change = d.change)
    (hlookup : d'.occasion.lookup = d.occasion.lookup)
    (hlisteners : ∀ id sub, d.hub.registry.subscription? id = some sub →
      d'.hub.registry.subscription? id = some sub)
    (hs : d.isSighted = true) : d'.isSighted = true := by
  rw [isSighted, Bool.and_eq_true, Bool.not_eq_true', List.isEmpty_eq_false_iff] at hs ⊢
  obtain ⟨htargets, hhydrated⟩ := hs
  obtain ⟨id, hid⟩ := List.exists_mem_of_ne_nil _ htargets
  obtain ⟨sub, hsub, hcovers⟩ := Registry.mem_matching_iff.mp hid
  refine ⟨?_, (isHydrated_congr hchange hlookup).trans hhydrated⟩
  have hid' : id ∈ d'.targets :=
    Registry.mem_matching_iff.mpr ⟨sub, hlisteners id sub hsub, hchange ▸ hcovers⟩
  exact List.ne_nil_of_mem hid'

end Dispatch

theorem clock_between {h : Hub} {between late : List Step} {o o' : Occasion}
    (hclock : (((.dispatch o :: (between ++ .dispatch o' :: late)).filterMap
      Step.occasion?).map Occasion.now).Pairwise (· ≤ ·)) :
    o.now ≤ o'.now ∧
      ∀ e ∈ h.dispatches between, o.now ≤ e.occasion.now ∧ e.occasion.now ≤ o'.now := by
  simp only [List.filterMap_cons, Step.occasion?, List.filterMap_append, List.map_cons,
    List.map_append, List.pairwise_cons, List.pairwise_append] at hclock
  obtain ⟨hfrom, -, -, hto⟩ := hclock
  refine ⟨hfrom _ (by simp), fun e he => ?_⟩
  have hmem : e.occasion.now ∈ (between.filterMap Step.occasion?).map Occasion.now :=
    List.mem_map_of_mem (List.mem_filterMap.mpr ⟨_, dispatch_mem_of_mem_dispatches he, rfl⟩)
  exact ⟨hfrom _ (List.mem_append_left _ hmem), hto _ hmem _ List.mem_cons_self⟩

theorem repeated_again {h : Hub} {s s' : Step} {between : List Step} {d d' : Dispatch}
    (hd : h.dispatch? s = some d) (hd' : ((h.perform s).1.run between).dispatch? s' = some d')
    (hchange : d.change = d'.change) (hlookup : d.occasion.lookup = d'.occasion.lookup)
    (haudience : ∀ x ∈ s :: between, x.setsSubscription = false)
    (hclock : ∀ e ∈ (h.perform s).1.dispatches between,
      d.occasion.now ≤ e.occasion.now ∧ e.occasion.now ≤ d'.occasion.now)
    (hlater : d.occasion.now ≤ d'.occasion.now)
    (hlimits : h.settings.sightings.debounce ≤ h.settings.sightings.retention)
    (hsoon : d'.occasion.now < d.occasion.now + h.settings.sightings.debounce)
    (hs' : d'.isSighted = true) : d'.isRepeated = true := by
  obtain ⟨haud, hauds⟩ := List.forall_mem_cons.mp haudience
  have hhub := (dispatch?_hub hd).1
  have hhub' := (dispatch?_hub hd').1
  have hs : d.isSighted = true := by
    refine Dispatch.isSighted_of_listeners hchange hlookup (fun id sub hsub => ?_) hs'
    have hsub' : ((h.perform s).1.run between).registry.subscription? id = some sub := by
      rw [hhub']
      exact hsub
    have hbefore := subscription?_of_perform haud (subscription?_of_run hauds hsub')
    rw [hhub] at hbefore
    exact hbefore
  have hsighted : ∃ u, (h.perform s).1.sightings.latest.get? d'.fingerprint = some u ∧
      d.occasion.now ≤ u := by
    rw [perform_hub_of_dispatch? hd, Dispatch.result_sightings, hs, if_pos rfl,
      ← Dispatch.fingerprint_congr hchange hlookup]
    exact ⟨_, Sightings.get?_sight_self _, Nat.le_refl _⟩
  have hshort : d'.occasion.now - d.occasion.now ≤
      (h.perform s).1.settings.sightings.retention := by
    rw [perform_settings]
    omega
  obtain ⟨u, hu, hlate⟩ := remembered_run hclock hshort hsighted
  have hsettings : d'.hub.settings = h.settings := by
    have hrun : ((h.perform s).1.run between).settings = h.settings := by simp
    rwa [hhub'] at hrun
  rw [hhub'] at hu
  refine Sightings.isRepeat_iff.mpr ⟨u, hu, ?_⟩
  rw [hsettings]
  omega

-- Messages are looked up in the store, in whatever order its events are gone through.
def Occasion.LooksUpIn (o : Occasion) (s : Store) : Prop :=
  ∃ events, events.Perm s.events.values ∧ o.lookup = (s.readerAmong events).messages

theorem Occasion.LooksUpIn.lookup_eq {o : Occasion} {s : Store} (ho : o.LooksUpIn s)
    (hdistinct : s.HasDistinctTimes) : o.lookup = s.reader.messages := by
  obtain ⟨events, hperm, hlookup⟩ := ho
  rw [hlookup, Store.readerAmong_eq hdistinct hperm]

-- A batch is applied to a store and announced to its end, and then the same batch is applied and
-- announced again. Meanwhile no other batch is taken, no subscription is set, and the clock does
-- not go back; and what is sighted again is sighted within the debounce time.
structure Redelivers (store : Store) (b : Batch) (h : Hub) (first second : List Step) : Prop where
  idle : h.pending = []
  taken : h.taken first = [b]
  announced : (h.run first).pending = []
  takenAgain : (h.run first).taken second = [b]
  audience : ∀ s ∈ first ++ second, s.setsSubscription = false
  distinct : (store.apply b).HasDistinctTimes
  lookup : ∀ o, .dispatch o ∈ first → o.LooksUpIn (store.apply b)
  lookupAgain : ∀ o, .dispatch o ∈ second → o.LooksUpIn ((store.apply b).apply b)
  clock : (((first ++ second).filterMap Step.occasion?).map Occasion.now).Pairwise (· ≤ ·)
  soon : ∀ p ∈ (h.dispatches first).zip ((h.run first).dispatches second),
    p.2.isSighted = true →
      p.2.occasion.now < p.1.occasion.now + h.settings.sightings.debounce

namespace Redelivers

variable {store : Store} {b : Batch} {h : Hub} {first second : List Step}

theorem changes (hr : Redelivers store b h first second) :
    (h.dispatches first).map Dispatch.change = b.changes := by
  have hchanges := dispatches_changes h first
  simpa [hr.idle, hr.announced, hr.taken] using hchanges

theorem changes_again (hr : Redelivers store b h first second) :
    ((h.run first).dispatches second).map Dispatch.change ++
      ((h.run first).run second).pending = b.changes := by
  have hchanges := dispatches_changes (h.run first) second
  simpa [hr.announced, hr.takenAgain] using hchanges

-- Each dispatch of the second time has one of the first time for the same change.
theorem counterpart (hr : Redelivers store b h first second) {before after : List Dispatch}
    {d' : Dispatch} (hd' : (h.run first).dispatches second = before ++ d' :: after) :
    ∃ before' d after', h.dispatches first = before' ++ d :: after' ∧ d.change = d'.change ∧
      (d, d') ∈ (h.dispatches first).zip ((h.run first).dispatches second) := by
  have hboth : (h.dispatches first).map Dispatch.change = before.map Dispatch.change ++
      d'.change :: (after.map Dispatch.change ++ ((h.run first).run second).pending) := by
    rw [hr.changes, ← hr.changes_again, hd']
    simp
  obtain ⟨before', rest, hfirst, hbefore, hrest⟩ := List.map_eq_append_iff.mp hboth
  obtain ⟨d, after', rfl, hchange, -⟩ := List.map_eq_cons_iff.mp hrest
  have hlength : before'.length = before.length := by
    simpa using congrArg List.length hbefore
  refine ⟨before', d, after', hfirst, hchange, ?_⟩
  rw [hfirst, hd', List.zip_append hlength]
  exact List.mem_append_right _ List.mem_cons_self

theorem not_announced (hr : Redelivers store b h first second)
    (hlimits : h.settings.sightings.debounce ≤ h.settings.sightings.retention) {d' : Dispatch}
    (hd' : d' ∈ (h.run first).dispatches second) : d'.isAnnounced = false := by
  cases hs' : d'.isSighted with
  | false => simp [Dispatch.isAnnounced, hs']
  | true =>
    obtain ⟨before, after, hsecond⟩ := List.append_of_mem hd'
    obtain ⟨before', d, after', hfirst, hchange, hpair⟩ := hr.counterpart hsecond
    have hsoon := hr.soon _ hpair hs'
    obtain ⟨early, s, late, rfl, hd, -, -⟩ := dispatches_split hfirst
    obtain ⟨early', s', late', rfl, hagain, -, -⟩ := dispatches_split hsecond
    obtain ⟨-, rfl⟩ := dispatch?_hub hd
    obtain ⟨-, rfl⟩ := dispatch?_hub hagain
    have hlookup : d.occasion.lookup = d'.occasion.lookup := by
      have hthis := hr.lookup d.occasion (by simp)
      have hthat := hr.lookupAgain d'.occasion (by simp)
      rw [Store.apply_apply] at hthat
      rw [hthis.lookup_eq hr.distinct, hthat.lookup_eq hr.distinct]
    have hrun : (h.run (early ++ .dispatch d.occasion :: late)).run early' =
        ((h.run early).perform (.dispatch d.occasion)).1.run (late ++ early') := by
      rw [run_append, run_cons, ← run_append]
    have hsplit : (early ++ .dispatch d.occasion :: late) ++
        (early' ++ .dispatch d'.occasion :: late') =
        early ++ .dispatch d.occasion :: ((late ++ early') ++ .dispatch d'.occasion :: late') := by
      simp
    have haudience : ∀ x ∈ .dispatch d.occasion :: (late ++ early'),
        x.setsSubscription = false := by
      intro x hx
      refine hr.audience x ?_
      rw [hsplit]
      exact List.mem_append_right _ (List.mem_append_left _ hx)
    have hclock := hr.clock
    rw [hsplit, List.filterMap_append, List.map_append] at hclock
    obtain ⟨hlater, hbetween⟩ := clock_between (List.pairwise_append.mp hclock).2.1
    rw [hrun] at hagain
    rw [← run_settings h early] at hlimits hsoon
    have hrepeated := repeated_again hd hagain hchange hlookup haudience hbetween hlater hlimits
      hsoon hs'
    simp [Dispatch.isAnnounced, hrepeated]

end Redelivers

-- Where nothing is announced no number is given.
theorem run_sequences {h : Hub} {steps : List Step}
    (hnone : ∀ d ∈ h.dispatches steps, d.isAnnounced = false) :
    (h.run steps).sequences = h.sequences := by
  induction steps generalizing h with
  | nil => rfl
  | cons s steps ih =>
    have hrest : ∀ d ∈ (h.perform s).1.dispatches steps, d.isAnnounced = false :=
      fun d hd => hnone d (List.mem_append_right _ hd)
    rw [run_cons, ih hrest]
    cases hd : h.dispatch? s with
    | none => exact (perform_kept hd).1
    | some d =>
      have hthis := hnone d (by simp [dispatches, hd])
      rw [perform_hub_of_dispatch? hd, Dispatch.result_hub, (dispatch?_hub hd).1]
      simp [Dispatch.announced, hthis]

-- Nobody is told anything the second time, and no number is given for it.
theorem redelivery_writes_nothing {store : Store} {b : Batch} {h : Hub} {first second : List Step}
    (hlimits : h.settings.sightings.debounce ≤ h.settings.sightings.retention)
    (hr : Redelivers store b h first second) :
    (∀ id m taken, (id, .change m taken) ∉ (h.run first).log second) ∧
      (h.run (first ++ second)).sequences = (h.run first).sequences := by
  refine ⟨fun id m taken hm => ?_, ?_⟩
  · obtain ⟨early, s, late, d, rfl, hd, ho, -⟩ := change_mem_log hm
    have hmem : d ∈ (h.run first).dispatches (early ++ s :: late) := by
      simp [dispatches_append, dispatches, hd]
    rw [Dispatch.offers_eq, hr.not_announced hlimits hmem, Bool.and_false] at ho
    cases ho
  · rw [run_append]
    exact run_sequences fun d hd => hr.not_announced hlimits hd

-- A message comes twice while one connection listens.
def greeting : Batch where
  rooms := .ofList [("!a", { events :=
    [{ eventId := "$1", type := EventType.message
       content := .object [("body", .string "hello")] }] })]

def hearing : Occasion where
  lookup := (({} : Store).apply greeting).reader.messages
  now := 0
  time := 0
  write := fun _ _ => .ok ()

def greeted : List Step :=
  [.publish (.synced greeting), .take, .dispatch hearing, .dispatch hearing]

def listening : Hub := (started {}).run [.register ⟨1⟩, .subscribe ⟨1⟩ .everything]

theorem run_greeted : ∃ sightings sequences suppressed delivered, listening.run greeted =
    { listening with
      intake := { isOpen := true, received := 1 }
      sightings, sequences, suppressed, delivered } := by
  have hwrites (id : ConnectionId) (frame : Frame) : (hearing.write id frame).toBool = true := rfl
  have hsteps : greeted =
      [.publish (.synced greeting), .take] ++ [.dispatch hearing] ++ [.dispatch hearing] := rfl
  rw [hsteps, run_concat, run_concat]
  obtain ⟨_, _, _, _, hfirst⟩ :=
    perform_of_writes hwrites (listening.run [.publish (.synced greeting), .take])
  rw [hfirst]
  obtain ⟨sightings, sequences, suppressed, delivered, hsecond⟩ := perform_of_writes hwrites _
  exact ⟨sightings, sequences, suppressed, delivered, hsecond.trans rfl⟩

theorem hearing_of_mem {h : Hub} {d : Dispatch} (hd : d ∈ h.dispatches greeted) :
    d.occasion = hearing := by
  simpa [greeted] using dispatch_mem_of_mem_dispatches hd

theorem greeted_redelivers : Redelivers {} greeting listening greeted greeted where
  idle := rfl
  taken := rfl
  announced := by
    obtain ⟨_, _, _, _, hrun⟩ := run_greeted
    rw [hrun]
    rfl
  takenAgain := by
    obtain ⟨_, _, _, _, hrun⟩ := run_greeted
    rw [hrun]
    rfl
  audience := by simp [greeted, Step.setsSubscription]
  distinct := fun _ _ => (List.pairwise_singleton _ _).sublist List.filter_sublist
  lookup := by
    intro o ho
    obtain rfl : o = hearing := by simpa [greeted] using ho
    exact ⟨_, .refl _, rfl⟩
  lookupAgain := by
    intro o ho
    obtain rfl : o = hearing := by simpa [greeted] using ho
    rw [Store.apply_apply]
    exact ⟨_, .refl _, rfl⟩
  clock := by decide
  soon := by
    intro p hp _
    have hfirst := hearing_of_mem (List.of_mem_zip hp).1
    have hsecond := hearing_of_mem (List.of_mem_zip hp).2
    rw [hfirst, hsecond]
    decide

theorem greeting_redelivered_writes_nothing :
    listening.settings.sightings.debounce ≤ listening.settings.sightings.retention ∧
    Redelivers {} greeting listening greeted greeted ∧
    (∃ d ∈ (listening.run greeted).dispatches greeted, d.isSighted = true) ∧
    (∀ id m taken, (id, .change m taken) ∉ (listening.run greeted).log greeted) ∧
    (listening.run (greeted ++ greeted)).sequences = (listening.run greeted).sequences := by
  refine ⟨by decide, greeted_redelivers, ?_,
    redelivery_writes_nothing (by decide) greeted_redelivers⟩
  obtain ⟨_, _, _, _, hrun⟩ := run_greeted
  rw [hrun]
  exact ⟨_, List.mem_cons_self, rfl⟩

end ChatRelay.Hub

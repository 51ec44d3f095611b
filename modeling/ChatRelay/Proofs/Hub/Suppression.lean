import Mathlib.Data.List.Chain
import ChatRelay.Proofs.Change.Fingerprint
import ChatRelay.Proofs.Change.Sightings
import ChatRelay.Proofs.Hub.Delivery
import ChatRelay.Proofs.Message.Lookup

namespace ChatRelay.Hub

-- The latest sighting of a fingerprint is that of this step or of an earlier one.
theorem perform_latest {h : Hub} {s : Step} {f : String} {t : Nat}
    (ht : (h.perform s).1.sightings.latest.get? f = some t) :
    (∃ d, h.dispatch? s = some d ∧ d.isSighted = true ∧ d.fingerprint = f ∧ d.occasion.now = t) ∨
      h.sightings.latest.get? f = some t ∧
        ∀ d, h.dispatch? s = some d → d.isSighted = true → d.fingerprint ≠ f := by
  rcases h.perform_sightings s with ⟨hsame, hnone⟩ | ⟨d, hd, hs, hsight⟩
  · rw [hsame] at ht
    refine .inr ⟨ht, fun d hd hs => ?_⟩
    rw [hnone d hd] at hs
    cases hs
  · rw [hsight] at ht
    by_cases hf : f = d.fingerprint
    · subst hf
      rw [Sightings.get?_sight_self] at ht
      exact .inl ⟨d, hd, hs, rfl, Option.some.inj ht⟩
    · refine .inr ⟨?_, fun d' hd' _ => ?_⟩
      · rcases Sightings.get?_sight_of_ne hf with hkept | ⟨hnone, -⟩
        · exact hkept.symm.trans ht
        · rw [hnone] at ht
          cases ht
      · obtain rfl := Option.some.inj (hd.symm.trans hd')
        exact Ne.symm hf

-- The step of the latest sighting in a run.
theorem run_latest {h : Hub} {steps : List Step} {f : String} {t : Nat}
    (ht : (h.run steps).sightings.latest.get? f = some t) :
    (∃ before s after d, steps = before ++ s :: after ∧ (h.run before).dispatch? s = some d ∧
      d.isSighted = true ∧ d.fingerprint = f ∧ d.occasion.now = t ∧
      ∀ d' ∈ (h.run (before ++ [s])).dispatches after, d'.isSighted = true → d'.fingerprint ≠ f) ∨
    h.sightings.latest.get? f = some t ∧
      ∀ d ∈ h.dispatches steps, d.isSighted = true → d.fingerprint ≠ f := by
  induction steps generalizing h with
  | nil => exact .inr ⟨ht, fun d hd => by cases hd⟩
  | cons s steps ih =>
    rcases ih ht with ⟨before, s', after, d, rfl, hd, hfound⟩ | ⟨hbefore, hnone⟩
    · exact .inl ⟨s :: before, s', after, d, rfl, hd, hfound⟩
    · rcases perform_latest hbefore with ⟨d, hd, hs, hf, hnow⟩ | ⟨hbefore, hthis⟩
      · exact .inl ⟨[], s, steps, d, rfl, hd, hs, hf, hnow, hnone⟩
      · refine .inr ⟨hbefore, fun d hd => ?_⟩
        simp only [dispatches, List.mem_append, Option.mem_toList] at hd
        rcases hd with hd | hd
        · exact hthis d hd
        · exact hnone d hd

-- Times of which each is less than the debounce time after the one before.
def Unbroken (debounce : Nat) (times : List Nat) : Prop :=
  times.IsChain fun t u => u - t < debounce

-- The sightings of a fingerprint.
def sightingsOf (f : String) (ds : List Dispatch) : List Dispatch :=
  ds.filter fun d => d.isSighted && d.fingerprint == f

theorem sightingsOf_eq_nil {f : String} {ds : List Dispatch}
    (h : ∀ d ∈ ds, d.isSighted = true → d.fingerprint ≠ f) : sightingsOf f ds = [] := by
  rw [sightingsOf, List.filter_eq_nil_iff]
  intro d hd
  simpa using h d hd

theorem sightingsOf_append (f : String) (ds es : List Dispatch) :
    sightingsOf f (ds ++ es) = sightingsOf f ds ++ sightingsOf f es :=
  List.filter_append ds es

-- What is suppressed was sighted a short while ago, by a dispatch of this run.
theorem sighted_before {h : Hub} (hfresh : ∀ f, h.sightings.latest.get? f = none)
    {steps : List Step} {s : Step} {d : Dispatch} (hd : (h.run steps).dispatch? s = some d)
    (hsuppressed : d.isSuppressed = true) :
    ∃ before s' after d', steps = before ++ s' :: after ∧ (h.run before).dispatch? s' = some d' ∧
      d'.isSighted = true ∧ d'.fingerprint = d.fingerprint ∧
      d.occasion.now - d'.occasion.now < h.settings.sightings.debounce ∧
      sightingsOf d.fingerprint ((h.run (before ++ [s'])).dispatches after) = [] := by
  have hhub := (dispatch?_hub hd).1
  have hsettings : d.hub.settings = h.settings := by
    rw [← run_settings h steps, hhub]
  have hsightings : d.hub.sightings = (h.run steps).sightings := by rw [hhub]
  rw [Dispatch.isSuppressed, Bool.and_eq_true] at hsuppressed
  obtain ⟨t, ht, hshort⟩ := Sightings.isRepeat_iff.mp hsuppressed.2
  rw [hsightings] at ht
  rw [hsettings] at hshort
  rcases run_latest ht with ⟨before, s', after, d', rfl, hd', hs', hf', rfl, hlast⟩ | ⟨hold, -⟩
  · exact ⟨before, s', after, d', rfl, hd', hs', hf', hshort, sightingsOf_eq_nil hlast⟩
  · rw [hfresh] at hold
    cases hold

-- Behind every suppression there is an announcement with the same fingerprint, the last one, and
-- from there on the fingerprint was sighted without a gap as long as the debounce time.
theorem announced_before {h : Hub} (hfresh : ∀ f, h.sightings.latest.get? f = none)
    (steps : List Step) (s : Step) (d : Dispatch) (hd : (h.run steps).dispatch? s = some d)
    (hsuppressed : d.isSuppressed = true) :
    ∃ early s₀ between d₀, steps = early ++ s₀ :: between ∧ (h.run early).dispatch? s₀ = some d₀ ∧
      d₀.isAnnounced = true ∧ d₀.fingerprint = d.fingerprint ∧
      (∀ d' ∈ sightingsOf d.fingerprint ((h.run (early ++ [s₀])).dispatches between),
        d'.isAnnounced = false) ∧
      Unbroken h.settings.sightings.debounce
        ((d₀ :: (sightingsOf d.fingerprint ((h.run (early ++ [s₀])).dispatches between) ++ [d])).map
          (·.occasion.now)) := by
  obtain ⟨before, s', after, d', rfl, hd', hs', hf', hshort, hlast⟩ :=
    sighted_before hfresh hd hsuppressed
  cases hrep : d'.isRepeated with
  | false =>
    have ha : d'.isAnnounced = true := by simp [Dispatch.isAnnounced, hs', hrep]
    refine ⟨before, s', after, d', rfl, hd', ha, hf', ?_, ?_⟩
    · simp [hlast]
    · simp [hlast, Unbroken, hshort]
  | true =>
    have hsup' : d'.isSuppressed = true := by simp [Dispatch.isSuppressed, hs', hrep]
    obtain ⟨early, s₀, between, d₀, rfl, hd₀, ha₀, hf₀, hnone, hchain⟩ :=
      announced_before hfresh before s' d' hd' hsup'
    have hsplit : sightingsOf d.fingerprint
        ((h.run (early ++ [s₀])).dispatches (between ++ s' :: after)) =
        sightingsOf d.fingerprint ((h.run (early ++ [s₀])).dispatches between) ++ [d'] := by
      have hrun : (h.run (early ++ [s₀])).run between = h.run (early ++ s₀ :: between) := by
        rw [← run_append, List.append_assoc, List.singleton_append]
      rw [dispatches_append, hrun, dispatches, hd', ← run_concat, sightingsOf_append,
        sightingsOf_append, hlast]
      simp [sightingsOf, hs', hf']
    rw [hf'] at hf₀ hnone hchain
    refine ⟨early, s₀, between ++ s' :: after, d₀, by simp, hd₀, ha₀, hf₀, ?_, ?_⟩
    · rw [hsplit]
      intro e he
      rcases List.mem_append.mp he with he | he
      · exact hnone e he
      · obtain rfl := List.mem_singleton.mp he
        simp [Dispatch.isAnnounced, hrep]
    · rw [hsplit]
      simp only [List.map_append, List.map_cons, List.map_nil, List.append_assoc,
        List.singleton_append] at hchain ⊢
      exact List.isChain_cons_append_cons_cons.mpr ⟨hchain, hshort, .singleton _⟩
termination_by steps.length

theorem contains_run {h : Hub} {steps : List Step} {id : ConnectionId}
    (hcome : steps.countP (Step.registers id) = 0)
    (hc : (h.run steps).registry.contains id = true) : h.registry.contains id = true := by
  induction steps generalizing h with
  | nil => exact hc
  | cons s steps ih =>
    rw [List.countP_cons] at hcome
    have hs : s.registers id = false := Bool.eq_false_iff.mpr fun hs => by simp [hs] at hcome
    exact contains_perform hs (ih (by omega) hc)

-- Who listened to an announcement, and is still there, has taken its frame.
theorem sentTo_log_announced {h : Hub} {early between : List Step} {s : Step} {d : Dispatch}
    {id : ConnectionId} (hd : (h.run early).dispatch? s = some d) (ha : d.isAnnounced = true)
    (hlistens : d.listens id = true) (hcome : between.countP (Step.registers id) = 0)
    (hhere : (h.run (early ++ s :: between)).registry.contains id = true) :
    sentTo id (h.log (early ++ s :: between)) =
      sentTo id (h.log early) ++ .change (d.message id) true ::
        sentTo id ((h.run (early ++ [s])).log between) := by
  have ho : d.offers id = true := by rw [Dispatch.offers_eq, hlistens, ha]; rfl
  obtain ⟨-, rfl⟩ := dispatch?_hub hd
  have hw : d.succeeds id = true := by
    rw [run_append, run_cons] at hhere
    have hafter := contains_run hcome hhere
    rw [perform_of_dispatch? hd] at hafter
    simp only [Registry.contains, Dispatch.result_subscription?, Dispatch.loses, ho] at hafter
    by_cases hw : d.succeeds id = true
    · exact hw
    · simp [hw] at hafter
  have hsent : (h.run early).sentIn id (.dispatch d.occasion) = [.change (d.message id) true] := by
    simp [sentIn, hd, ho, hw]
  rw [log_append, sentTo_append, sentTo_log_cons, hsent, run_concat]
  rfl

-- The frames of changes that are written to a connection, whether its sink takes them or not.
def framesTo (id : ConnectionId) (log : Log) : List ChangeMessage :=
  (sentTo id log).filterMap fun
    | .change m _ => some m
    | _ => none

theorem mem_framesTo_iff {id : ConnectionId} {m : ChangeMessage} {log : Log} :
    m ∈ framesTo id log ↔ ∃ taken, (id, .change m taken) ∈ log := by
  simp only [framesTo, List.mem_filterMap, mem_sentTo_iff]
  constructor
  · rintro ⟨x, hx, hm⟩
    cases x with
    | change m' taken =>
      obtain rfl := Option.some.inj hm
      exact ⟨taken, hx⟩
    | ping | close => cases hm
  · rintro ⟨taken, hx⟩
    exact ⟨_, hx, rfl⟩

namespace Dispatch

-- A frame that says the same as the dispatch, if times do not matter.
def Tells (d : Dispatch) (m : ChangeMessage) : Prop :=
  m.change = d.change ∧ Change.SameEntries (m.entries.getD []) (d.entries.getD [])

-- A frame about one of the same things that says something else.
def Contradicts (d : Dispatch) (m : ChangeMessage) : Prop :=
  m.change.chatId = d.change.chatId ∧ (∃ i, i ∈ d.change.ids ∧ i ∈ m.change.ids) ∧
    (m.change.kind ≠ d.change.kind ∨
      ¬Change.SameEntries (m.entries.getD []) (d.entries.getD []))

-- One of the frames tells what the dispatch is about, and none after it contradicts that.
def ToldLast (d : Dispatch) (frames : List ChangeMessage) : Prop :=
  ∃ before m after, frames = before ++ m :: after ∧ d.Tells m ∧ ∀ m' ∈ after, ¬d.Contradicts m'

def preimage (d : Dispatch) : String := d.change.preimage (d.entries.getD [])

theorem tells_of_preimage_eq {d d₀ : Dispatch} (h : d₀.preimage = d.preimage)
    (id : ConnectionId) : d.Tells (d₀.message id) :=
  Change.same_of_preimage_eq h

end Dispatch

-- What stands behind a suppression. The same was announced before: by the last announcement with
-- its fingerprint, and it was sighted again and again since. Who listened then and still listens
-- has taken the frame of that announcement. Unless two documents have one digest, it tells what is
-- suppressed now, and nothing later contradicts it unless that was announced meanwhile.
def RepeatsAnnouncement (h : Hub) (steps : List Step) (d : Dispatch) : Prop :=
  ∃ early o₀ between d₀, steps = early ++ .dispatch o₀ :: between ∧
    (h.run early).dispatch? (.dispatch o₀) = some d₀ ∧
    d₀.isAnnounced = true ∧ d₀.fingerprint = d.fingerprint ∧
    let meanwhile := (h.run (early ++ [.dispatch o₀])).dispatches between
    (∀ d' ∈ sightingsOf d.fingerprint meanwhile, d'.isAnnounced = false) ∧
    Unbroken h.settings.sightings.debounce
      ((d₀ :: (sightingsOf d.fingerprint meanwhile ++ [d])).map (·.occasion.now)) ∧
    ∀ id, d₀.listens id = true → d.listens id = true →
      between.countP (Step.registers id) = 0 →
      d₀.message id ∈ accepted id (h.log steps) ∧
      (d₀.message id).frame.Carries (d₀.message id) ∧
      (d₀.preimage = d.preimage → d.Tells (d₀.message id) ∧
        ((∀ d' ∈ meanwhile, d'.isAnnounced = true → ¬d.Contradicts (d'.message id)) →
          d.ToldLast (framesTo id (h.log steps))))

theorem suppressed_after_announcement (settings : HubSettings) (steps : List Step) (o : Occasion)
    (d : Dispatch) (hd : ((started settings).run steps).dispatch? (.dispatch o) = some d)
    (hsuppressed : d.isSuppressed = true) : RepeatsAnnouncement (started settings) steps d := by
  have hfresh (f : String) : (started settings).sightings.latest.get? f = none := rfl
  obtain ⟨early, s₀, between, d₀, rfl, hd₀, ha₀, hf₀, hnone, hchain⟩ :=
    announced_before hfresh steps _ d hd hsuppressed
  obtain ⟨-, rfl⟩ := dispatch?_hub hd₀
  refine ⟨early, d₀.occasion, between, d₀, rfl, hd₀, ha₀, hf₀, hnone, hchain,
    fun id hl₀ hl hcome => ?_⟩
  have hhere : ((started settings).run
      (early ++ .dispatch d₀.occasion :: between)).registry.contains id = true := by
    rw [(dispatch?_hub hd).1]
    exact Registry.contains_of_mem_matching (Dispatch.mem_targets_iff.mpr hl)
  have hsent := sentTo_log_announced hd₀ ha₀ hl₀ hcome hhere
  refine ⟨?_, (d₀.message id).frame_carries, fun hpreimage => ?_⟩
  · rw [accepted, hsent, List.filterMap_append]
    exact List.mem_append_right _ List.mem_cons_self
  · have htells := Dispatch.tells_of_preimage_eq hpreimage id
    refine ⟨htells, fun hsame => ?_⟩
    refine ⟨framesTo id ((started settings).log early), d₀.message id,
      framesTo id (((started settings).run (early ++ [.dispatch d₀.occasion])).log between),
      ?_, htells, fun m hm => ?_⟩
    · rw [framesTo, hsent, List.filterMap_append]
      rfl
    · obtain ⟨taken, hm⟩ := mem_framesTo_iff.mp hm
      obtain ⟨before, s, after, d', rfl, hd', ho', rfl⟩ := change_mem_log hm
      refine hsame d' ?_ (Dispatch.isAnnounced_of_offers ho')
      simp [dispatches_append, dispatches, hd']

-- A message is suppressed, in a run whose clock never goes back.
structure Suppresses (settings : HubSettings) (steps : List Step) (o : Occasion) (d : Dispatch) :
    Prop where
  dispatched : ((started settings).run steps).dispatch? (.dispatch o) = some d
  message : d.change.kind = .messageUpserted
  suppressed : d.isSuppressed = true
  clock : ((steps.filterMap Step.occasion? ++ [o]).map Occasion.now).Pairwise (· ≤ ·)

-- A chat with one message.
def roomWith (text : String) : Store where
  rooms := .ofList [("!a", { id := "!a", name := none, accountId := "" })]
  events := .ofList [("$1", { roomId := "!a", eventId := "$1", type := EventType.message
                              content := .object [("body", .string text)] })]

def telling (text : String) : Occasion where
  lookup := (roomWith text).reader.messages
  now := 0
  time := 0
  write := fun _ _ => .ok ()

-- The message came or changed. Nobody listens while the chat itself is announced.
def arrival (text : String) : List Step :=
  [.subscribe ⟨1⟩ .nothing,
    .publish (.synced { rooms := .ofList [("!a", { events := (roomWith text).events.values })] }),
    .take, .dispatch (telling text), .subscribe ⟨1⟩ .everything]

-- The message is about to be announced.
def announcing (h : Hub) (text : String) : Dispatch where
  hub := { h with pending := [] }
  change := .ofMessages .messageUpserted "!a" (.ofList ["$1"])
  occasion := telling text

-- What is announced depends on the text alone.
theorem announcing_fingerprint (h h' : Hub) (text : String) :
    (announcing h text).fingerprint = (announcing h' text).fingerprint := rfl

theorem announcing_suppressed {h : Hub} {text : String} (hsettings : h.settings = {})
    (hsighted : (announcing h text).isSighted = true)
    (hlatest : h.sightings.latest.get? (announcing h text).fingerprint = some 0) :
    (announcing h text).isSuppressed = true := by
  have hrepeat : (announcing h text).isRepeated = true := by
    refine Sightings.isRepeat_iff.mpr ⟨0, hlatest, ?_⟩
    rw [show (announcing h text).hub.settings = h.settings from rfl, hsettings]
    exact show 0 - 0 < 250 by decide
  simp [Dispatch.isSuppressed, hsighted, hrepeat]

def firstArrival : List Step := .register ⟨1⟩ :: arrival "one"

-- A second connection comes after the message was announced, and the message comes again.
def lateListener : List Step :=
  firstArrival ++ .dispatch (telling "one") :: arrival "one" ++
    [.register ⟨2⟩, .subscribe ⟨2⟩ .everything]

def lateDispatch : Dispatch := announcing ((started {}).run lateListener) "one"

theorem lateListener_suppresses : Suppresses {} lateListener (telling "one") lateDispatch where
  dispatched := rfl
  message := rfl
  suppressed := announcing_suppressed rfl rfl (Sightings.get?_sight_self _)
  clock := by decide

theorem lateListener_suppressed_after_announcement :
    ((started {}).run lateListener).dispatch? (.dispatch (telling "one")) = some lateDispatch ∧
    lateDispatch.isSuppressed = true ∧
    RepeatsAnnouncement (started {}) lateListener lateDispatch :=
  ⟨lateListener_suppresses.dispatched, lateListener_suppresses.suppressed,
    suppressed_after_announcement {} lateListener (telling "one") lateDispatch
      lateListener_suppresses.dispatched lateListener_suppresses.suppressed⟩

-- The message is changed between the two times, and a connection listens to both.
def changed : List Step := firstArrival ++ .dispatch (telling "one") :: arrival "two"

def changedBack : List Step := changed ++ .dispatch (telling "two") :: arrival "one"

def firstDispatch : Dispatch := announcing ((started {}).run firstArrival) "one"

def secondDispatch : Dispatch := announcing ((started {}).run changed) "two"

def thirdDispatch : Dispatch := announcing ((started {}).run changedBack) "one"

theorem not_sameEntries (h h' : Hub) :
    ¬Change.SameEntries ((announcing h "one").entries.getD [])
      ((announcing h' "two").entries.getD []) := by
  obtain ⟨m, hm, hone⟩ : ∃ m : Message,
      (announcing h "one").entries = some [m.toJson] ∧ m.text = "one" := ⟨_, rfl, rfl⟩
  obtain ⟨m', hm', htwo⟩ : ∃ m : Message,
      (announcing h' "two").entries = some [m.toJson] ∧ m.text = "two" := ⟨_, rfl, rfl⟩
  rw [hm, hm']
  intro hsame
  have htext := hsame.stringAt?_eq (by decide) m.toJson_text m'.toJson_text
  rw [hone, htwo] at htext
  exact absurd htext (by decide)

theorem dispatch?_changed :
    ((started {}).run changed).dispatch? (.dispatch (telling "two")) = some secondDispatch := rfl

theorem changed_sightings : secondDispatch.hub.sightings =
    (({} : Sightings).sight {} 0 firstDispatch.fingerprint).1 := rfl

theorem run_changedBack :
    (started {}).run changedBack = secondDispatch.result.1.run (arrival "one") := by
  rw [changedBack, run_append, run_cons, perform_hub_of_dispatch? dispatch?_changed]

-- What the second announcement did to the hub does not matter for what follows.
theorem of_secondDispatch {P : Hub → Prop}
    (h : ∀ sightings sequences suppressed delivered,
      P { secondDispatch.hub with sightings, sequences, suppressed, delivered }) :
    P secondDispatch.result.1 := by
  have hsucceeds (id : ConnectionId) : secondDispatch.succeeds id = true := rfl
  obtain ⟨sightings, sequences, suppressed, delivered, heq⟩ :=
    Dispatch.result_of_succeeds hsucceeds
  rw [heq]
  exact h _ _ _ _

theorem first_sighted :
    secondDispatch.hub.sightings.latest.get? firstDispatch.fingerprint = some 0 := by
  rw [changed_sightings]
  exact Sightings.get?_sight_self _

-- If the two texts had one fingerprint, the change itself would be suppressed.
theorem changed_suppresses (heq : firstDispatch.fingerprint = secondDispatch.fingerprint) :
    Suppresses {} changed (telling "two") secondDispatch where
  dispatched := dispatch?_changed
  message := rfl
  suppressed := announcing_suppressed rfl rfl (heq ▸ first_sighted)
  clock := by decide

theorem first_sighted_still (hne : firstDispatch.fingerprint ≠ secondDispatch.fingerprint) :
    secondDispatch.result.1.sightings.latest.get? firstDispatch.fingerprint = some 0 := by
  have hsighted : secondDispatch.isSighted = true := rfl
  rw [Dispatch.result_sightings, hsighted, if_pos rfl]
  rcases Sightings.get?_sight_of_ne hne with hkept | ⟨-, t, ht, hold⟩
  · exact hkept.trans first_sighted
  · obtain rfl := Option.some.inj (first_sighted.symm.trans ht)
    exact absurd hold (by decide)

theorem changedBack_suppresses (hne : firstDispatch.fingerprint ≠ secondDispatch.fingerprint) :
    Suppresses {} changedBack (telling "one") thirdDispatch where
  dispatched := by
    rw [thirdDispatch, run_changedBack]
    exact of_secondDispatch (P := fun h => (h.run (arrival "one")).dispatch?
      (.dispatch (telling "one")) = some (announcing (h.run (arrival "one")) "one"))
      fun _ _ _ _ => rfl
  message := rfl
  suppressed := by
    rw [thirdDispatch, run_changedBack]
    refine announcing_suppressed ?_ ?_ ?_
    · exact of_secondDispatch (P := fun h => (h.run (arrival "one")).settings = {})
        fun _ _ _ _ => rfl
    · exact of_secondDispatch (P := fun h =>
        (announcing (h.run (arrival "one")) "one").isSighted = true) fun _ _ _ _ => rfl
    · have hkept : (secondDispatch.result.1.run (arrival "one")).sightings =
          secondDispatch.result.1.sightings :=
        of_secondDispatch (P := fun h => (h.run (arrival "one")).sightings = h.sightings)
          fun _ _ _ _ => rfl
      rw [hkept, announcing_fingerprint _ ((started {}).run firstArrival)]
      exact first_sighted_still hne
  clock := by decide

theorem second_offered (hne : firstDispatch.fingerprint ≠ secondDispatch.fingerprint) :
    secondDispatch.offers ⟨1⟩ = true := by
  have hlistens : secondDispatch.listens ⟨1⟩ = true := rfl
  have hhydrated : secondDispatch.isHydrated = true := rfl
  have hfresh : secondDispatch.isRepeated = false := by
    refine Bool.eq_false_iff.mpr fun hrepeat => ?_
    obtain ⟨t, ht, -⟩ := Sightings.isRepeat_iff.mp hrepeat
    rw [changed_sightings] at ht
    rcases Sightings.get?_sight_of_ne hne.symm with hnone | ⟨hnone, -⟩
    · cases (ht.symm.trans hnone)
    · cases (ht.symm.trans hnone)
  simp [Dispatch.offers, hlistens, hhydrated, hfresh]

theorem framesTo_changed :
    framesTo ⟨1⟩ ((started {}).log changed) = [firstDispatch.message ⟨1⟩] := rfl

theorem framesTo_changedBack (hne : firstDispatch.fingerprint ≠ secondDispatch.fingerprint) :
    framesTo ⟨1⟩ ((started {}).log changedBack) =
      [firstDispatch.message ⟨1⟩, secondDispatch.message ⟨1⟩] := by
  have hsecond : ((started {}).run changed).sentIn ⟨1⟩ (.dispatch (telling "two")) =
      [.change (secondDispatch.message ⟨1⟩) true] := by
    have hsucceeds : secondDispatch.succeeds ⟨1⟩ = true := rfl
    simp [sentIn, dispatch?_changed, second_offered hne, hsucceeds]
  have hthird : sentTo ⟨1⟩ (secondDispatch.result.1.log (arrival "one")) = [] :=
    of_secondDispatch (P := fun h => sentTo ⟨1⟩ (h.log (arrival "one")) = []) fun _ _ _ _ => rfl
  rw [framesTo, changedBack, log_append, sentTo_append, List.filterMap_append, sentTo_log_cons,
    hsecond, perform_hub_of_dispatch? dispatch?_changed, hthird]
  exact congrArg (· ++ _) framesTo_changed

theorem listens_changed {d : Dispatch} (hd : d ∈ (started {}).dispatches changed)
    (ha : d.isAnnounced = true) : d.listens ⟨1⟩ = true := by
  have hall : ((started {}).dispatches changed).all
      (fun d => d.listens ⟨1⟩ || !d.isAnnounced) = true := rfl
  simpa [ha] using List.all_eq_true.mp hall d hd

theorem listens_changedBack {d : Dispatch} (hd : d ∈ (started {}).dispatches changedBack)
    (ha : d.isAnnounced = true) : d.listens ⟨1⟩ = true := by
  rw [changedBack, dispatches_append, List.mem_append] at hd
  rcases hd with hd | hd
  · exact listens_changed hd ha
  · rw [dispatches, dispatch?_changed, perform_hub_of_dispatch? dispatch?_changed,
      List.mem_append, Option.mem_toList] at hd
    rcases hd with hd | hd
    · obtain rfl := Option.some.inj hd
      rfl
    · have hall : (secondDispatch.result.1.dispatches (arrival "one")).all
          (fun d => d.listens ⟨1⟩ || !d.isAnnounced) = true :=
        of_secondDispatch (P := fun h => (h.dispatches (arrival "one")).all
          (fun d => d.listens ⟨1⟩ || !d.isAnnounced) = true) fun _ _ _ _ => rfl
      simpa [ha] using List.all_eq_true.mp hall d hd

theorem not_toldLast_changed :
    ¬secondDispatch.ToldLast (framesTo ⟨1⟩ ((started {}).log changed)) := by
  rw [framesTo_changed]
  rintro ⟨before, m, after, hframes, ⟨-, hsame⟩, -⟩
  have hm : m ∈ [firstDispatch.message ⟨1⟩] := by simp [hframes]
  obtain rfl := List.mem_singleton.mp hm
  exact not_sameEntries _ _ hsame

theorem not_toldLast_changedBack (hne : firstDispatch.fingerprint ≠ secondDispatch.fingerprint) :
    ¬thirdDispatch.ToldLast (framesTo ⟨1⟩ ((started {}).log changedBack)) := by
  rw [framesTo_changedBack hne]
  rintro ⟨before, m, after, hframes, ⟨-, hsame⟩, hlast⟩
  cases before with
  | nil =>
    obtain ⟨-, rfl⟩ := List.cons.inj hframes
    refine hlast (secondDispatch.message ⟨1⟩) List.mem_cons_self
      ⟨rfl, ⟨"$1", IdSet.contains_iff_mem.mp rfl, IdSet.contains_iff_mem.mp rfl⟩,
        .inr fun hsame => ?_⟩
    exact not_sameEntries _ _ hsame.symm
  | cons first before =>
    have hm : m ∈ [secondDispatch.message ⟨1⟩] := by simp [(List.cons.inj hframes).2]
    obtain rfl := List.mem_singleton.mp hm
    exact not_sameEntries _ _ hsame.symm

-- A connection that comes late may never be told, and one that was there all the time may be left
-- with what it was told in between.
theorem suppression_can_lose :
    (¬∀ settings steps o d, Suppresses settings steps o d → ∀ id, d.listens id = true →
      ∃ m ∈ framesTo id ((started settings).log steps), d.Tells m) ∧
    ¬∀ settings steps o d, Suppresses settings steps o d → ∀ id, d.listens id = true →
      (∀ d' ∈ (started settings).dispatches steps, d'.isAnnounced = true → d'.listens id = true) →
      d.ToldLast (framesTo id ((started settings).log steps)) := by
  refine ⟨fun hclaim => ?_, fun hclaim => ?_⟩
  · obtain ⟨m, hm, -⟩ := hclaim {} lateListener _ _ lateListener_suppresses ⟨2⟩ rfl
    have hnothing : framesTo ⟨2⟩ ((started {}).log lateListener) = [] := rfl
    rw [hnothing] at hm
    cases hm
  · by_cases hfp : firstDispatch.fingerprint = secondDispatch.fingerprint
    · exact not_toldLast_changed (hclaim {} changed _ _ (changed_suppresses hfp) ⟨1⟩ rfl
        fun _ => listens_changed)
    · have hlistens : thirdDispatch.listens ⟨1⟩ = true := by
        rw [thirdDispatch, run_changedBack]
        exact of_secondDispatch (P := fun h =>
          (announcing (h.run (arrival "one")) "one").listens ⟨1⟩ = true) fun _ _ _ _ => rfl
      exact not_toldLast_changedBack hfp (hclaim {} changedBack _ _ (changedBack_suppresses hfp)
        ⟨1⟩ hlistens fun _ => listens_changedBack)

end ChatRelay.Hub

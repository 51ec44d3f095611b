import ChatRelay.Proofs.Hub.Frame
import ChatRelay.Proofs.Registry

namespace ChatRelay.Hub

-- How each write of a round ends.
abbrev Writes := ConnectionId → Frame → Except WriteError Unit

-- What becomes of a change depends on this, beside the hub.
structure Occasion where
  lookup : MessageLookup
  -- The moment on the hub's clock, and the time that the messages say.
  now : Nat
  time : Int
  write : Writes

-- A change that a hub is about to announce.
structure Dispatch where
  hub : Hub
  change : Change
  occasion : Occasion

namespace Dispatch

def targets (d : Dispatch) : List ConnectionId := d.hub.registry.matching d.change.chatId

-- Whether a connection is registered and wants to hear about the chat.
def listens (d : Dispatch) (id : ConnectionId) : Bool :=
  (d.hub.registry.subscription? id).any (·.covers d.change.chatId)

-- Whether there is something to tell. Messages that came or changed have to be found.
def isHydrated (d : Dispatch) : Bool :=
  match d.change.kind with
  | .messageUpserted =>
    match d.occasion.lookup d.change.chatId d.change.ids.toList with
    | .ok messages => !messages.isEmpty
    | .error _ => false
  | _ => true

def entries (d : Dispatch) : Option (List Json) :=
  match d.change.kind with
  | .messageUpserted =>
    match d.occasion.lookup d.change.chatId d.change.ids.toList with
    | .ok messages => some (messages.map Message.toJson)
    | .error _ => none
  | _ => none

def fingerprint (d : Dispatch) : String := d.change.fingerprint (d.entries.getD [])

def isRepeated (d : Dispatch) : Bool :=
  d.hub.sightings.isRepeat d.hub.settings.sightings d.occasion.now d.fingerprint

-- Only what somebody would be told counts as sighted.
def isSighted (d : Dispatch) : Bool := !d.targets.isEmpty && d.isHydrated

def isSuppressed (d : Dispatch) : Bool := d.isSighted && d.isRepeated

def isAnnounced (d : Dispatch) : Bool := d.isSighted && !d.isRepeated

def offers (d : Dispatch) (id : ConnectionId) : Bool :=
  d.listens id && d.isHydrated && !d.isRepeated

def message (d : Dispatch) (id : ConnectionId) : ChangeMessage where
  change := d.change
  sequence := d.hub.sequences.current id + 1
  time := d.occasion.time
  entries := d.entries

def succeeds (d : Dispatch) (id : ConnectionId) : Bool :=
  (d.occasion.write id (d.message id).frame).toBool

-- Whether the connection takes a frame for the change.
def reaches (d : Dispatch) (id : ConnectionId) : Bool := d.offers id && d.succeeds id

-- Whether the connection is lost over the change.
def loses (d : Dispatch) (id : ConnectionId) : Bool := d.offers id && !d.succeeds id

def lost (d : Dispatch) : List ConnectionId := d.targets.filter d.loses

def result (d : Dispatch) : Hub × Dispatched :=
  d.hub.dispatch d.occasion.lookup d.occasion.now d.occasion.time d.occasion.write d.change

theorem mem_targets_iff {d : Dispatch} {id : ConnectionId} :
    id ∈ d.targets ↔ d.listens id = true := by
  simp only [targets, Registry.mem_matching_iff, listens, Option.any_eq_true]

theorem targets_ne_nil {d : Dispatch} {id : ConnectionId} (h : d.listens id = true) :
    d.targets ≠ [] :=
  List.ne_nil_of_mem (mem_targets_iff.mpr h)

theorem offers_eq (d : Dispatch) (id : ConnectionId) :
    d.offers id = (d.listens id && d.isAnnounced) := by
  cases h : d.listens id with
  | false => simp [offers, h]
  | true =>
    have hne : d.targets.isEmpty = false := List.isEmpty_eq_false_iff.mpr (targets_ne_nil h)
    simp [offers, h, isAnnounced, isSighted, hne]

theorem isAnnounced_of_offers {d : Dispatch} {id : ConnectionId} (h : d.offers id = true) :
    d.isAnnounced = true := by
  rw [offers_eq, Bool.and_eq_true] at h
  exact h.2

theorem listens_of_offers {d : Dispatch} {id : ConnectionId} (h : d.offers id = true) :
    d.listens id = true := by
  rw [offers_eq, Bool.and_eq_true] at h
  exact h.1

theorem mem_lost_iff {d : Dispatch} {id : ConnectionId} : id ∈ d.lost ↔ d.loses id = true := by
  rw [lost, List.mem_filter, mem_targets_iff, and_iff_right_iff_imp]
  intro h
  rw [loses, Bool.and_eq_true] at h
  exact listens_of_offers h.1

theorem lost_eq_nil {d : Dispatch} (h : d.isAnnounced = false) : d.lost = [] := by
  rw [lost, List.filter_eq_nil_iff]
  intro id _
  simp [loses, offers_eq, h]

theorem content_eq (d : Dispatch) :
    content d.occasion.lookup d.change =
      if d.isHydrated then .available d.entries else .unavailable := by
  unfold content isHydrated entries
  cases d.change.kind with
  | messageUpserted =>
    cases d.occasion.lookup d.change.chatId d.change.ids.toList with
    | error e => rfl
    | ok messages => cases messages <;> rfl
  | chatUpserted => rfl
  | chatDeleted => rfl
  | messageDeleted => rfl

-- The hub after the announcement, before any write is over.
def announced (d : Dispatch) : Hub :=
  { d.hub with
    sightings :=
      if d.isSighted then
        (d.hub.sightings.sight d.hub.settings.sightings d.occasion.now d.fingerprint).1
      else d.hub.sightings
    sequences :=
      if d.isAnnounced then d.targets.foldl Sequences.advance d.hub.sequences else d.hub.sequences
    suppressed := d.hub.suppressed + if d.isSuppressed then 1 else 0 }

def announcement (d : Dispatch) : Announcement :=
  if d.targets.isEmpty then .unheard
  else if !d.isHydrated then .unavailable
  else if d.isRepeated then .repeated
  else .offered (d.targets.map fun id => (id, d.message id))

theorem announce_eq (d : Dispatch) :
    d.hub.announce d.occasion.lookup d.occasion.now d.occasion.time d.change =
      (d.announced, d.announcement) := by
  have hcontent := d.content_eq
  unfold announce
  cases htargets : d.targets with
  | nil =>
    have hs : d.isSighted = false := by simp [isSighted, htargets]
    simp only [targets] at htargets
    simp [announced, announcement, isAnnounced, isSuppressed, hs, targets, htargets]
  | cons first rest =>
    have hne : d.targets.isEmpty = false := by simp [htargets]
    have hm : d.hub.registry.matching d.change.chatId = first :: rest := htargets
    simp only [hm]
    cases hh : d.isHydrated with
    | false =>
      have hs : d.isSighted = false := by simp [isSighted, hh]
      simp [hcontent, hh, announced, announcement, isAnnounced, isSuppressed, hs, hne]
    | true =>
      have hs : d.isSighted = true := by simp [isSighted, hh, hne]
      simp only [hcontent, hh, if_true, Sightings.sight]
      have hr : d.hub.sightings.isRepeat d.hub.settings.sightings d.occasion.now
          (d.change.fingerprint (d.entries.getD [])) = d.isRepeated := rfl
      rw [hr]
      cases hrep : d.isRepeated with
      | true =>
        simp [announced, announcement, isAnnounced, isSuppressed, hs, hh, hne, hrep,
          Sightings.sight, fingerprint]
      | false =>
        simp [announced, announcement, isAnnounced, isSuppressed, hs, hh, hrep,
          Sightings.sight, fingerprint, offersTo, htargets, message]

theorem announcement_offers (d : Dispatch) :
    d.announcement.offers =
      if d.isAnnounced then d.targets.map fun id => (id, d.message id) else [] := by
  unfold announcement isAnnounced isSighted
  cases d.targets.isEmpty <;> cases d.isHydrated <;> cases d.isRepeated <;> rfl

end Dispatch

-- The connections whose write failed.
def failures (outcomes : List (ConnectionId × Except WriteError Unit)) : List ConnectionId :=
  (outcomes.filter fun o => !o.2.toBool).map (·.1)

theorem settle_hub (counted : Bool) (h : Hub)
    (outcomes : List (ConnectionId × Except WriteError Unit)) :
    (h.settle counted outcomes).1 =
      { h with
        registry := h.registry.unregisterAll (failures outcomes)
        delivered :=
          h.delivered + if counted then outcomes.countP (fun o => o.2.toBool) else 0 } := by
  induction outcomes generalizing h with
  | nil => cases counted <;> rfl
  | cons outcome rest ih =>
    obtain ⟨id, result⟩ := outcome
    cases result with
    | ok u =>
      simp only [settle]
      rw [ih]
      cases counted <;>
        simp [noteDelivery, failures, Except.toBool, Registry.unregisterAll]
      omega
    | error e =>
      have hdrop : h.drop id = ({ h with registry := h.registry.unregister id },
        h.registry.contains id) := rfl
      simp only [settle, hdrop]
      cases h.registry.contains id <;>
        simp [ih, failures, Except.toBool, Registry.unregisterAll]

-- A connection that has one write in a round is closed if that failed and it was registered.
theorem settle_closed (counted : Bool) (h : Hub)
    (outcomes : List (ConnectionId × Except WriteError Unit))
    (hnodup : (outcomes.map (·.1)).Nodup) :
    (h.settle counted outcomes).2 = (failures outcomes).filter h.registry.contains := by
  induction outcomes generalizing h with
  | nil => rfl
  | cons outcome rest ih =>
    obtain ⟨id, result⟩ := outcome
    obtain ⟨hid, hrest⟩ := List.nodup_cons.mp hnodup
    cases result with
    | ok u =>
      simp only [settle]
      rw [ih _ hrest]
      cases counted <;> simp [noteDelivery, failures, Except.toBool]
    | error e =>
      have hdrop : h.drop id = ({ h with registry := h.registry.unregister id },
        h.registry.contains id) := rfl
      have hkeep : (failures rest).filter (h.registry.unregister id).contains =
          (failures rest).filter h.registry.contains := by
        apply List.filter_congr
        intro other ho
        have hne : other ≠ id := by
          rintro rfl
          obtain ⟨o, hm, rfl⟩ := List.mem_map.mp ho
          exact hid (List.mem_map.mpr ⟨o, (List.mem_filter.mp hm).1, rfl⟩)
        simp [Registry.contains, Registry.subscription?_unregister, hne]
      have hf : failures ((id, Except.error e) :: rest) = id :: failures rest := by
        simp [failures, Except.toBool]
      simp only [settle, hdrop, hf]
      cases hc : h.registry.contains id with
      | true => simp [ih _ hrest, hkeep, hc]
      | false => simp [ih _ hrest, hkeep, hc]

namespace Dispatch

theorem frames_failures (d : Dispatch) :
    failures (d.announcement.frames.map fun (id, frame) => (id, d.occasion.write id frame)) =
      d.lost := by
  unfold Announcement.frames
  rw [announcement_offers]
  cases ha : d.isAnnounced with
  | false => simp [failures, lost_eq_nil ha]
  | true =>
    simp only [if_true, List.map_map, failures, List.filter_map, lost, Function.comp_def]
    rw [List.map_id']
    apply List.filter_congr
    intro id hid
    simp [loses, offers_eq, mem_targets_iff.mp hid, ha, succeeds]

theorem frames_nodup (d : Dispatch) :
    ((d.announcement.frames.map fun (id, frame) => (id, d.occasion.write id frame)).map
      (·.1)).Nodup := by
  unfold Announcement.frames
  rw [announcement_offers]
  cases d.isAnnounced with
  | false => simp
  | true =>
    simp only [if_true, List.map_map, Function.comp_def, List.map_id']
    exact d.hub.registry.matching_nodup d.change.chatId

def deliveries (d : Dispatch) : Nat := d.targets.countP d.reaches

theorem frames_countP (d : Dispatch) :
    (d.announcement.frames.map fun (id, frame) => (id, d.occasion.write id frame)).countP
      (fun o => o.2.toBool) = d.deliveries := by
  unfold Announcement.frames
  rw [announcement_offers]
  cases ha : d.isAnnounced with
  | false =>
    have h : d.targets.countP d.reaches = 0 := by
      rw [List.countP_eq_zero]
      intro id _
      simp [reaches, offers_eq, ha]
    simp [deliveries, h]
  | true =>
    simp only [if_true, List.map_map, List.countP_map, deliveries, Function.comp_def]
    apply List.countP_congr
    intro id hid
    simp [reaches, offers_eq, mem_targets_iff.mp hid, ha, succeeds]

-- The hub after a change: what the announcement did to it, less the connections that were lost.
theorem result_hub (d : Dispatch) :
    d.result.1 =
      { d.announced with
        registry := d.hub.registry.unregisterAll d.lost
        delivered := d.hub.delivered + d.deliveries } := by
  simp only [result, dispatch, announce_eq, round]
  rw [settle_hub, frames_failures, frames_countP]
  rfl

-- Where no write fails, nobody is lost.
theorem result_of_succeeds {d : Dispatch} (h : ∀ id, d.succeeds id = true) :
    ∃ sightings sequences suppressed delivered,
      d.result.1 = { d.hub with sightings, sequences, suppressed, delivered } := by
  have hlost : d.lost = [] := by
    simp [lost, loses, h]
  rw [result_hub, hlost]
  exact ⟨_, _, _, _, rfl⟩

theorem result_announcement (d : Dispatch) : d.result.2.announcement = d.announcement := by
  simp only [result, dispatch, announce_eq]

theorem result_closed (d : Dispatch) : d.result.2.closed = d.lost := by
  simp only [result, dispatch, announce_eq, round]
  rw [settle_closed _ _ _ d.frames_nodup, frames_failures, List.filter_eq_self]
  intro id hid
  exact Registry.contains_of_mem_matching (List.mem_filter.mp hid).1

@[simp] theorem result_pending (d : Dispatch) : d.result.1.pending = d.hub.pending := by
  rw [result_hub]; rfl

@[simp] theorem result_settings (d : Dispatch) : d.result.1.settings = d.hub.settings := by
  rw [result_hub]; rfl

theorem result_sightings (d : Dispatch) :
    d.result.1.sightings =
      if d.isSighted then
        (d.hub.sightings.sight d.hub.settings.sightings d.occasion.now d.fingerprint).1
      else d.hub.sightings := by
  rw [result_hub]; rfl

-- A connection that was lost is not registered any more; all others are as before.
theorem result_subscription? (d : Dispatch) (id : ConnectionId) :
    d.result.1.registry.subscription? id =
      if d.loses id then none else d.hub.registry.subscription? id := by
  rw [result_hub]
  simp only [Registry.subscription?_unregisterAll, mem_lost_iff]

-- A connection that is offered the change gets one number for it; no other number is given.
theorem result_current (d : Dispatch) (id : ConnectionId) :
    d.result.1.sequences.current id =
      d.hub.sequences.current id + if d.offers id then 1 else 0 := by
  rw [result_hub]
  simp only [announced, offers_eq]
  cases ha : d.isAnnounced with
  | false => simp
  | true =>
    have hn : d.targets.Nodup := d.hub.registry.matching_nodup d.change.chatId
    simp only [if_true, Sequences.current_foldl_advance, Bool.and_true, hn.count, mem_targets_iff]

end Dispatch

end ChatRelay.Hub

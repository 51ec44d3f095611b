import ChatRelay.Proofs.Change.Sightings
import ChatRelay.Proofs.Hub.Run

namespace ChatRelay.Hub.Dispatch

-- Nobody who is registered wants to hear about the chat.
def Unheard (d : Dispatch) : Prop :=
  ∀ id s, d.hub.registry.subscription? id = some s → s.covers d.change.chatId = false

-- Messages came or changed, and the lookup fails or finds none of them.
def Unfound (d : Dispatch) : Prop :=
  d.change.kind = .messageUpserted ∧
    ∀ messages, d.occasion.lookup d.change.chatId d.change.ids.toList = .ok messages → messages = []

-- What came with the messages, if messages came; nothing comes with another change.
def Brings (d : Dispatch) (entries : Option (List Json)) : Prop :=
  (d.change.kind = .messageUpserted → ∃ messages,
    d.occasion.lookup d.change.chatId d.change.ids.toList = .ok messages ∧ messages ≠ [] ∧
      entries = some (messages.map Message.toJson)) ∧
  (d.change.kind ≠ .messageUpserted → entries = none)

-- The same was sighted less than the debounce time ago.
def Repeats (d : Dispatch) : Prop :=
  ∃ sighted, d.hub.sightings.latest.get? d.fingerprint = some sighted ∧
    d.occasion.now - sighted < d.hub.settings.sightings.debounce

def sighted (d : Dispatch) : Sightings :=
  (d.hub.sightings.sight d.hub.settings.sightings d.occasion.now d.fingerprint).1

-- What is sent to all connections together.
def log (d : Dispatch) : Log := d.result.2.log d.occasion.write

-- The frames of the change that the sinks took.
def taken (d : Dispatch) : List ChangeMessage := d.log.filterMap (·.2.accepted?)

-- The outcomes of the writes, if they are other ones.
def withWrites (d : Dispatch) (write : Writes) : Dispatch :=
  { d with occasion := { d.occasion with write } }

theorem targets_isEmpty_iff {d : Dispatch} : d.targets.isEmpty = true ↔ d.Unheard := by
  have hlistens (id : ConnectionId) : id ∉ d.targets ↔
      ∀ s, d.hub.registry.subscription? id = some s → s.covers d.change.chatId = false := by
    simp [targets, Registry.mem_matching_iff]
  rw [List.isEmpty_iff, List.eq_nil_iff_forall_not_mem]
  exact forall_congr' hlistens

theorem isHydrated_iff {d : Dispatch} : d.isHydrated = true ↔ ¬d.Unfound := by
  unfold isHydrated Unfound
  cases d.change.kind with
  | messageUpserted =>
    cases d.occasion.lookup d.change.chatId d.change.ids.toList with
    | error e => simp
    | ok messages => cases messages <;> simp
  | chatUpserted | chatDeleted | messageDeleted => simp

theorem isSighted_iff {d : Dispatch} : d.isSighted = true ↔ ¬d.Unheard ∧ ¬d.Unfound := by
  rw [isSighted, Bool.and_eq_true, isHydrated_iff, ← targets_isEmpty_iff, Bool.not_eq_true,
    Bool.not_eq_true']

theorem isRepeated_iff {d : Dispatch} : d.isRepeated = true ↔ d.Repeats := Sightings.isRepeat_iff

theorem brings_entries {d : Dispatch} (h : d.isHydrated = true) : d.Brings d.entries := by
  unfold isHydrated at h
  unfold Brings entries
  cases hkind : d.change.kind with
  | messageUpserted =>
    rw [hkind] at h
    cases hfound : d.occasion.lookup d.change.chatId d.change.ids.toList with
    | error e => simp [hfound] at h
    | ok messages =>
      refine ⟨fun _ => ⟨messages, rfl, ?_, rfl⟩, fun hne => absurd rfl hne⟩
      simpa [hfound] using h
  | chatUpserted | chatDeleted | messageDeleted => exact ⟨fun h => (nomatch h), fun _ => rfl⟩

theorem log_eq_nil {d : Dispatch} (h : d.isAnnounced = false) : d.log = [] := by
  have hoffers : d.result.2.announcement.offers = [] := by
    rw [result_announcement, announcement_offers, h]
    rfl
  have hclosed : d.result.2.closed = [] := by rw [result_closed, lost_eq_nil h]
  rw [log, Dispatched.log, hoffers, hclosed]
  rfl

theorem length_taken (d : Dispatch) : d.taken.length = d.deliveries := by
  have hclosing : (d.result.2.closed.map fun id => (id, Sent.close)).filterMap (·.2.accepted?) =
      [] := by
    simp [Sent.accepted?]
  have hcount := d.frames_countP
  rw [Announcement.frames, List.map_map, List.countP_map] at hcount
  rw [taken, log, Dispatched.log, List.filterMap_append, hclosing, List.append_nil,
    result_announcement, List.filterMap_map, List.length_filterMap_eq_countP, ← hcount]
  refine List.countP_congr fun offer _ => ?_
  cases hwrite : (d.occasion.write offer.1 offer.2.frame).toBool <;> simp [Sent.accepted?, hwrite]

-- Without an announcement nothing but the sightings and their count can change.
theorem result_of_not_announced {d : Dispatch} (h : d.isAnnounced = false) :
    d.result.1 =
      { d.hub with
        sightings := if d.isSighted then d.sighted else d.hub.sightings
        suppressed := d.hub.suppressed + if d.isSighted then 1 else 0 } := by
  have hdeliveries : d.deliveries = 0 := by rw [← length_taken, taken, log_eq_nil h]; rfl
  have hsuppressed : d.isSuppressed = d.isSighted := by
    cases hs : d.isSighted with
    | false => simp [isSuppressed, hs]
    | true =>
      have hrepeated : d.isRepeated = true := by simpa [isAnnounced, hs] using h
      simp [isSuppressed, hs, hrepeated]
  rw [result_hub, lost_eq_nil h, hdeliveries, announced, hsuppressed, h]
  rfl

-- How a connection fares: what it is sent, its number after that, and what it still wants to hear
-- about, if it is registered.
structure Fare where
  sent : List Sent
  number : Nat
  subscription : Option Subscription

def fare (d : Dispatch) (id : ConnectionId) : Fare where
  sent := sentTo id d.log
  number := d.result.1.sequences.current id
  subscription := d.result.1.registry.subscription? id

theorem fare_eq (d : Dispatch) (id : ConnectionId) :
    d.fare id =
      if d.offers id then
        { sent := if d.succeeds id then [.change (d.message id) true]
                  else [.change (d.message id) false, .close]
          number := d.hub.sequences.current id + 1
          subscription := if d.succeeds id then d.hub.registry.subscription? id else none }
      else
        { sent := []
          number := d.hub.sequences.current id
          subscription := d.hub.registry.subscription? id } := by
  rw [fare, log, sentTo_result, result_current, result_subscription?, loses]
  cases d.offers id <;> cases d.succeeds id <;> rfl

-- What an announcement does. All frames say the same, under the number of each connection, and the
-- fate of a connection is that of the write of its own frame.
structure Told (d : Dispatch) : Prop where
  hub : ∃ registry sequences, d.result.1 =
    { d.hub with
      registry, sequences
      sightings := d.sighted
      delivered := d.hub.delivered + d.taken.length }
  content : d.Brings d.entries
  listeners : ∀ id, d.listens id = true →
    let m : ChangeMessage :=
      { change := d.change
        sequence := d.hub.sequences.current id + 1
        time := d.occasion.time
        entries := d.entries }
    let succeeds := (d.occasion.write id m.frame).toBool
    m.frame.Carries m ∧ d.fare id =
      { sent := if succeeds then [.change m true] else [.change m false, .close]
        number := m.sequence
        subscription := if succeeds then d.hub.registry.subscription? id else none }
  others : ∀ id, d.listens id = false → d.fare id =
    { sent := []
      number := d.hub.sequences.current id
      subscription := d.hub.registry.subscription? id }

theorem told_of_isAnnounced {d : Dispatch} (h : d.isAnnounced = true) : d.Told where
  hub := by
    obtain ⟨hsighted, hfresh⟩ : d.isSighted = true ∧ d.isRepeated = false := by
      simpa [isAnnounced] using h
    have hsuppressed : d.isSuppressed = false := by simp [isSuppressed, hfresh]
    refine ⟨d.hub.registry.unregisterAll d.lost,
      d.targets.foldl Sequences.advance d.hub.sequences, ?_⟩
    rw [result_hub, announced, h, hsighted, hsuppressed, length_taken]
    rfl
  content := by
    have hhydrated : d.isHydrated = true := by
      simp only [isAnnounced, isSighted, Bool.and_eq_true] at h
      exact h.1.2
    exact brings_entries hhydrated
  listeners id hlistens := by
    have hoffers : d.offers id = true := by rw [offers_eq, hlistens, h]; rfl
    refine ⟨ChangeMessage.frame_carries _, ?_⟩
    rw [fare_eq, if_pos hoffers]
    rfl
  others id hlistens := by
    have hoffers : d.offers id = false := by rw [offers_eq, hlistens]; rfl
    rw [fare_eq, hoffers]
    rfl

-- A connection is offered the same and fares the same, whatever becomes of the writes to others.
theorem fare_withWrites {d : Dispatch} {write : Writes} {id : ConnectionId}
    (h : ∀ frame, write id frame = d.occasion.write id frame) :
    (d.withWrites write).fare id = d.fare id := by
  have hoffers : (d.withWrites write).offers id = d.offers id := rfl
  have hmessage : (d.withWrites write).message id = d.message id := rfl
  have hhub : (d.withWrites write).hub = d.hub := rfl
  have hsucceeds : (d.withWrites write).succeeds id = d.succeeds id :=
    congrArg Except.toBool (h (d.message id).frame)
  rw [fare_eq, fare_eq, hoffers, hmessage, hhub, hsucceeds]

-- Where nobody wants to hear about the chat, or messages that came cannot be found, nothing changes;
-- a repeat is counted and sighted, and nothing else; otherwise everybody is told, and nobody fares
-- by the writes to others.
theorem effect_by_case (d : Dispatch) :
    (d.Unheard ∨ d.Unfound → d.result.1 = d.hub ∧ d.log = []) ∧
    (¬(d.Unheard ∨ d.Unfound) → d.Repeats →
      d.result.1 = { d.hub with sightings := d.sighted, suppressed := d.hub.suppressed + 1 } ∧
        d.log = []) ∧
    (¬(d.Unheard ∨ d.Unfound) → ¬d.Repeats → d.Told) ∧
    ∀ write id, (∀ frame, write id frame = d.occasion.write id frame) →
      (d.withWrites write).fare id = d.fare id := by
  have hsighted : d.isSighted = true ↔ ¬(d.Unheard ∨ d.Unfound) := by rw [isSighted_iff, not_or]
  refine ⟨fun h => ?_, fun h hrepeats => ?_, fun h hfresh => ?_, fun write id => fare_withWrites⟩
  · have hs : d.isSighted = false := Bool.eq_false_iff.mpr fun hs => hsighted.mp hs h
    have ha : d.isAnnounced = false := by simp [isAnnounced, hs]
    refine ⟨?_, log_eq_nil ha⟩
    rw [result_of_not_announced ha, hs]
    rfl
  · have hs : d.isSighted = true := hsighted.mpr h
    have ha : d.isAnnounced = false := by simp [isAnnounced, isRepeated_iff.mpr hrepeats]
    refine ⟨?_, log_eq_nil ha⟩
    rw [result_of_not_announced ha, hs]
    rfl
  · have hrepeated : d.isRepeated = false := Bool.eq_false_iff.mpr (mt isRepeated_iff.mp hfresh)
    exact told_of_isAnnounced (by simp [isAnnounced, hsighted.mpr h, hrepeated])

-- A chat is left while two connections listen to it and one to another chat. The sink of the second
-- connection refuses the frame.
def farewell (sightings : Sightings) : Dispatch where
  hub :=
    { ({} : Hub).run [.register ⟨1⟩, .subscribe ⟨1⟩ .everything, .register ⟨2⟩,
        .subscribe ⟨2⟩ (.chats (.ofList ["!a"])), .register ⟨3⟩,
        .subscribe ⟨3⟩ (.chats (.ofList ["!b"]))] with sightings }
  change := .ofChat .chatDeleted "!a"
  occasion :=
    { lookup := fun _ _ => .ok [], now := 100, time := 5
      write := fun id _ => if id = ⟨2⟩ then .error (.sink .closed) else .ok () }

-- It is said once, and not again at the same moment; before anybody came it would not be said.
theorem farewell_effect_by_case :
    (¬((farewell {}).Unheard ∨ (farewell {}).Unfound) ∧ ¬(farewell {}).Repeats ∧
      (farewell {}).Told ∧ ((farewell {}).fare ⟨1⟩).number = 1 ∧
      ((farewell {}).fare ⟨2⟩).subscription = none ∧ ((farewell {}).fare ⟨3⟩).sent = []) ∧
    ((farewell (farewell {}).sighted).Repeats ∧ (farewell (farewell {}).sighted).log = []) ∧
    ({ farewell {} with hub := {} } : Dispatch).result.1 = {} ∧
    ((farewell {}).withWrites fun _ _ => .ok ()).fare ⟨1⟩ = (farewell {}).fare ⟨1⟩ := by
  have hheard (sightings : Sightings) :
      ¬((farewell sightings).Unheard ∨ (farewell sightings).Unfound) := by
    rintro (hunheard | ⟨hkind, -⟩)
    · exact Bool.noConfusion (hunheard ⟨1⟩ .everything rfl)
    · cases hkind
  have hfresh : ¬(farewell {}).Repeats := by
    rintro ⟨sighted, hsighted, -⟩
    cases hsighted
  have hrepeats : (farewell (farewell {}).sighted).Repeats :=
    ⟨100, Sightings.get?_sight_self _, by decide⟩
  obtain ⟨-, -, htold, hwrites⟩ := effect_by_case (farewell {})
  obtain ⟨-, hsuppressed, -⟩ := effect_by_case (farewell (farewell {}).sighted)
  obtain ⟨hnobody, -⟩ := effect_by_case { farewell {} with hub := {} }
  have htold := htold (hheard {}) hfresh
  refine ⟨⟨hheard {}, hfresh, htold, ?_, ?_, ?_⟩, ⟨hrepeats, (hsuppressed (hheard _) hrepeats).2⟩,
    (hnobody (.inl fun id s hs => nomatch hs)).1, hwrites _ ⟨1⟩ fun frame => rfl⟩
  · rw [(htold.listeners ⟨1⟩ (by decide +kernel)).2]
    rfl
  · rw [(htold.listeners ⟨2⟩ (by decide +kernel)).2]
    rfl
  · rw [htold.others ⟨3⟩ (by decide +kernel)]

end ChatRelay.Hub.Dispatch

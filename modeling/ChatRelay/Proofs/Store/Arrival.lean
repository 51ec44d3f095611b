import ChatRelay.Proofs.Message.Tally
import ChatRelay.Proofs.Store.Lookup
import ChatRelay.Proofs.Store.Separation

namespace ChatRelay

namespace Event

-- Whether an event is a reaction to the one with this identifier.
def reactsTo (e : Event) (id : String) : Bool :=
  e.effectiveType == EventType.reaction && e.target? == some id

variable {e : Event} {roomId id : String}

-- Nothing but the room of an event can depend on what it came with.
theorem inRoom_eq (e : Event) (roomId : String) :
    e.inRoom roomId = { e with roomId := (e.inRoom roomId).roomId } := by
  unfold inRoom
  split <;> rfl

@[simp] theorem effectiveType_inRoom : (e.inRoom roomId).effectiveType = e.effectiveType := by
  rw [inRoom_eq]
  rfl

@[simp] theorem id?_inRoom : (e.inRoom roomId).id? = e.id? := by
  rw [inRoom_eq]
  rfl

@[simp] theorem eventId_inRoom : (e.inRoom roomId).eventId = e.eventId := by
  rw [inRoom_eq]

@[simp] theorem target?_inRoom : (e.inRoom roomId).target? = e.target? := by
  rw [inRoom_eq]
  rfl

@[simp] theorem timestamp_inRoom : (e.inRoom roomId).timestamp = e.timestamp := by
  rw [inRoom_eq]

@[simp] theorem vote?_inRoom : (e.inRoom roomId).vote? = e.vote? := by
  rw [inRoom_eq]
  rfl

@[simp] theorem isShown_inRoom : (e.inRoom roomId).isShown = e.isShown := by
  rw [inRoom_eq]
  rfl

theorem isReactionTo_inRoom (h : e.roomId = "" ∨ e.roomId = roomId) :
    Store.isReactionTo roomId id (e.inRoom roomId) = e.reactsTo id := by
  simp [Store.isReactionTo, reactsTo, roomId_inRoom h]

theorem isMessageLike_of_isShown (h : e.isShown = true) :
    EventType.isMessageLike e.effectiveType = true := by
  simp only [isShown, Bool.and_eq_true] at h
  exact h.1.2

theorem isMessageLike_of_reactsTo (h : e.reactsTo id = true) :
    EventType.isMessageLike e.effectiveType = true := by
  simp only [reactsTo, Bool.and_eq_true, beq_iff_eq] at h
  rw [h.1]
  rfl

-- Messages take nothing back, and they are no news of members.
theorem redacts_of_isMessageLike (h : EventType.isMessageLike e.effectiveType = true) (id : String) :
    e.redacts id ≠ true := by
  intro hredacts
  rw [(redacts_eq_true.mp hredacts).1] at h
  exact absurd h (by decide)

theorem names_of_isMessageLike (h : EventType.isMessageLike e.effectiveType = true)
    (known : Option (Table String)) : e.names roomId known = known := by
  unfold names
  rw [if_neg]
  rintro ⟨htype, -⟩
  rw [htype] at h
  exact absurd h (by decide)

-- By induction on the events. Where none takes anything back and no two have one identifier, what is
-- stored is the event with the identifier, in whatever place it comes.
theorem foldl_fate_eq_some_iff {events : List Event} {stored : Option Event}
    (hquiet : ∀ x ∈ events, x.redacts id ≠ true)
    (hids : events.Pairwise fun a b => a.id? ≠ b.id?) :
    events.foldl (fun stored e => e.fate id stored) stored = some e ↔
      (e ∈ events ∧ e.id? = some id) ∨ ((∀ x ∈ events, x.id? ≠ some id) ∧ stored = some e) := by
  induction events generalizing stored with
  | nil => simp
  | cons x events ih =>
    obtain ⟨hne, hrest⟩ := List.pairwise_cons.mp hids
    rw [List.foldl_cons, ih (fun y hy => hquiet y (List.mem_cons_of_mem _ hy)) hrest, fate,
      if_neg (hquiet x List.mem_cons_self)]
    by_cases hx : x.id? = some id
    · have hother : ∀ y ∈ events, y.id? ≠ some id := fun y hy heq => hne y hy (hx.trans heq.symm)
      rw [if_pos hx]
      constructor
      · rintro (⟨he, hid⟩ | ⟨-, heq⟩)
        · exact absurd hid (hother e he)
        · obtain rfl := Option.some.inj heq
          exact .inl ⟨List.mem_cons_self, hx⟩
      · rintro (⟨he, hid⟩ | ⟨hnone, -⟩)
        · rcases List.mem_cons.mp he with rfl | he
          · exact .inr ⟨hother, rfl⟩
          · exact absurd hid (hother e he)
        · exact absurd hx (hnone x List.mem_cons_self)
    · rw [if_neg hx]
      have he : e ∈ x :: events ∧ e.id? = some id ↔ e ∈ events ∧ e.id? = some id := by
        refine and_congr_left fun hid => ⟨fun hm => ?_, List.mem_cons_of_mem _⟩
        refine (List.mem_cons.mp hm).resolve_left ?_
        rintro rfl
        exact hx hid
      rw [he, List.forall_mem_cons, and_iff_right hx]

end Event

namespace Batch

-- The events of a batch as they were sent.
def sent (b : Batch) : List Event := b.rooms.entries.flatMap (·.2.events)

-- A batch that tells of one room nothing but what events came.
structure IsNewsOf (b : Batch) (roomId : String) : Prop where
  left : b.leftRooms = []
  listed : ∀ entry ∈ b.rooms.entries, Text.trim entry.1 = roomId
  untouched : ∀ entry ∈ b.rooms.entries, entry.2.metadataChanged = false

variable {b : Batch} {roomId : String}

theorem IsNewsOf.namedRooms (hb : b.IsNewsOf roomId) (hne : roomId ≠ "") :
    b.namedRooms = b.rooms.entries.map fun entry => (roomId, entry.2) := by
  refine List.filterMap_eq_map_iff_forall_eq_some.mpr fun entry hentry => ?_
  have hname : Text.nonBlank? entry.1 = some roomId :=
    Text.nonBlank?_eq_some_iff.mpr ⟨(hb.listed entry hentry).symm, hne⟩
  simp [hname]

theorem IsNewsOf.recorded (hb : b.IsNewsOf roomId) (hne : roomId ≠ "") :
    b.recorded = b.sent.map (·.inRoom roomId) := by
  rw [Batch.recorded, hb.namedRooms hne, List.flatMap_map, sent, List.map_flatMap]

theorem IsNewsOf.entriesOf (hb : b.IsNewsOf roomId) (hne : roomId ≠ "") :
    b.entriesOf roomId = b.rooms.entries.map (·.2) := by
  rw [Batch.entriesOf, hb.namedRooms hne, List.filterMap_map]
  simp

end Batch

namespace Store

section Batches

variable {s : Store} {later : List Batch} {roomId : String}

theorem afterLeaving_of_none {b : Batch} (h : b.leftRooms = []) (s : Store) :
    s.afterLeaving b = s := by
  rw [afterLeaving, h]
  rfl

theorem stays_of_none (h : ∀ b ∈ later, b.leftRooms = []) (s : Store) (id : String) :
    Stays id s later := by
  induction later generalizing s with
  | nil => trivial
  | cons b later ih =>
    refine ⟨fun e _ => ?_, ih (fun x hx => h x (List.mem_cons_of_mem _ hx)) _⟩
    rw [h b List.mem_cons_self]
    exact List.not_mem_nil

theorem ownUserId_foldl_apply (s : Store) (later : List Batch) :
    (later.foldl apply s).ownUserId = s.ownUserId :=
  ownUserId_of_mem (band.foldl later fun b _ => apply_mem b) s

theorem get?_rooms_foldl_apply (h : ∀ b ∈ later, b.leftRooms = []) :
    (later.foldl apply s).rooms.get? roomId =
      (later.flatMap (·.entriesOf roomId)).foldl
        (fun known entry => some (.listed s.ownUserId roomId known entry)) (s.rooms.get? roomId) := by
  induction later generalizing s with
  | nil => rfl
  | cons b later ih =>
    rw [List.foldl_cons, ih fun x hx => h x (List.mem_cons_of_mem _ hx), get?_rooms_apply,
      afterLeaving_of_none (h b List.mem_cons_self), ownUserId_of_mem (apply_mem b),
      List.flatMap_cons, List.foldl_append]

theorem get?_members_foldl_apply (h : ∀ b ∈ later, b.leftRooms = []) :
    (later.foldl apply s).members.get? roomId =
      (later.flatMap Batch.recorded).foldl (fun known e => e.names roomId known)
        (s.members.get? roomId) := by
  induction later generalizing s with
  | nil => rfl
  | cons b later ih =>
    rw [List.foldl_cons, ih fun x hx => h x (List.mem_cons_of_mem _ hx), get?_members_apply,
      afterLeaving_of_none (h b List.mem_cons_self), List.flatMap_cons, List.foldl_append]

end Batches

-- Under each identifier stands another event.
theorem Keyed.nodup_values {s : Store} (hs : s.Keyed) : s.events.values.Nodup := by
  have hids : s.events.values.map (·.id?) = s.events.keys.map some := by
    rw [Table.values, Table.keys, List.map_map, List.map_map]
    refine List.map_congr_left fun entry hentry => ?_
    exact hs entry.1 entry.2 (Table.get?_eq_some_iff.mpr hentry)
  refine List.Nodup.of_map (·.id?) ?_
  rw [hids]
  exact (Table.keys_nodup s.events).map fun _ _ => Option.some.inj

end Store

-- A message and reactions to it, all of one room.
structure Thread (roomId : String) (t : Event) (reactions : List Event) : Prop where
  here : ∀ e ∈ t :: reactions, e.roomId = "" ∨ e.roomId = roomId
  shown : t.isShown = true
  own : t.id? = some t.eventId
  reacts : ∀ e ∈ reactions, e.reactsTo t.eventId = true
  named : ∀ e ∈ reactions, e.id?.isSome = true
  apart : (t :: reactions).Pairwise fun a b => a.id? ≠ b.id?

namespace Thread

-- The reactions to the message. A message may be a reaction to itself.
def reactionsTo (t : Event) (reactions : List Event) : List Event :=
  if t.reactsTo t.eventId then t :: reactions else reactions

variable {roomId : String} {t : Event} {reactions : List Event}

-- What is stored of a thread.
def stored (roomId : String) (t : Event) (reactions : List Event) : List Event :=
  (t :: reactions).map (·.inRoom roomId)

theorem isMessageLike (h : Thread roomId t reactions) :
    ∀ e ∈ t :: reactions, EventType.isMessageLike e.effectiveType = true := by
  intro e he
  rcases List.mem_cons.mp he with rfl | he
  · exact Event.isMessageLike_of_isShown h.shown
  · exact Event.isMessageLike_of_reactsTo (h.reacts e he)

theorem isMessageLike_stored (h : Thread roomId t reactions) :
    ∀ e ∈ stored roomId t reactions, EventType.isMessageLike e.effectiveType = true := by
  intro e he
  obtain ⟨sent, hsent, rfl⟩ := List.mem_map.mp he
  rw [Event.effectiveType_inRoom]
  exact h.isMessageLike sent hsent

theorem apart_stored (h : Thread roomId t reactions) :
    (stored roomId t reactions).Pairwise fun a b => a.id? ≠ b.id? := by
  refine List.pairwise_map.mpr (h.apart.imp fun hne => ?_)
  rwa [Event.id?_inRoom, Event.id?_inRoom]

theorem exists_id?_stored (h : Thread roomId t reactions) :
    ∀ e ∈ stored roomId t reactions, ∃ id, e.id? = some id := by
  intro e he
  obtain ⟨sent, hsent, rfl⟩ := List.mem_map.mp he
  rw [Event.id?_inRoom]
  rcases List.mem_cons.mp hsent with rfl | hsent
  · exact ⟨_, h.own⟩
  · exact Option.isSome_iff_exists.mp (h.named sent hsent)

theorem filter_stored (h : Thread roomId t reactions) :
    (stored roomId t reactions).filter (Store.isReactionTo roomId t.eventId) =
      (reactionsTo t reactions).map (·.inRoom roomId) := by
  have hsame : ∀ e ∈ t :: reactions,
      (Store.isReactionTo roomId t.eventId ∘ (·.inRoom roomId)) e = e.reactsTo t.eventId :=
    fun e he => Event.isReactionTo_inRoom (h.here e he)
  have hall : reactions.filter (·.reactsTo t.eventId) = reactions :=
    List.filter_eq_self.mpr h.reacts
  rw [stored, List.filter_map, List.filter_congr hsame, List.filter_cons, hall, reactionsTo]

end Thread

namespace Store

section Arrived

variable {s : Store} {later : List Batch} {roomId : String} {t : Event} {reactions : List Event}
  (hne : roomId ≠ "") (hnews : ∀ b ∈ later, b.IsNewsOf roomId)
  (hsent : (later.flatMap Batch.sent).Perm (t :: reactions)) (h : Thread roomId t reactions)

include hne hnews hsent in
theorem recorded_perm :
    (later.flatMap Batch.recorded).Perm (Thread.stored roomId t reactions) := by
  have hrecorded : later.flatMap Batch.recorded = (later.flatMap Batch.sent).map (·.inRoom roomId) := by
    rw [List.map_flatMap]
    exact List.flatMap_congr fun b hb => (hnews b hb).recorded hne
  rw [hrecorded]
  exact hsent.map _

include hne hnews hsent h

theorem get?_events_arrived (id : String) (e : Event) :
    (later.foldl apply s).events.get? id = some e ↔
      (e ∈ Thread.stored roomId t reactions ∧ e.id? = some id) ∨
        ((∀ x ∈ Thread.stored roomId t reactions, x.id? ≠ some id) ∧ s.events.get? id = some e) := by
  have hperm := recorded_perm hne hnews hsent
  have hstays : Stays id s later := stays_of_none (fun b hb => (hnews b hb).left) s id
  have hquiet : ∀ x ∈ later.flatMap Batch.recorded, x.redacts id ≠ true := fun x hx =>
    Event.redacts_of_isMessageLike (h.isMessageLike_stored x (hperm.mem_iff.mp hx)) id
  have hids := h.apart_stored.perm hperm.symm Ne.symm
  rw [get?_foldl_apply_of_stays hstays, Event.foldl_fate_eq_some_iff hquiet hids]
  simp only [hperm.mem_iff]

theorem memberNames_arrived : (later.foldl apply s).memberNames roomId = s.memberNames roomId := by
  have hperm := recorded_perm hne hnews hsent
  have hsilent : ∀ e ∈ later.flatMap Batch.recorded, ∀ known, e.names roomId known = known :=
    fun e he => Event.names_of_isMessageLike (h.isMessageLike_stored e (hperm.mem_iff.mp he))
  rw [memberNames, get?_members_foldl_apply fun b hb => (hnews b hb).left,
    Event.foldl_names_of_silent hsilent]
  rfl

omit h in
theorem get?_rooms_arrived :
    (later.foldl apply s).rooms.get? roomId =
      some ((s.rooms.get? roomId).getD (.unnamed s.ownUserId roomId)) := by
  have huntouched : ∀ entry ∈ later.flatMap (·.entriesOf roomId), entry.metadataChanged = false := by
    intro entry hentry
    obtain ⟨b, hb, hentry⟩ := List.mem_flatMap.mp hentry
    rw [(hnews b hb).entriesOf hne] at hentry
    obtain ⟨named, hnamed, rfl⟩ := List.mem_map.mp hentry
    exact (hnews b hb).untouched named hnamed
  have hsome : later.flatMap (·.entriesOf roomId) ≠ [] := by
    obtain ⟨b, hb, ht⟩ := List.mem_flatMap.mp (hsent.mem_iff.mpr List.mem_cons_self)
    obtain ⟨named, hnamed, -⟩ := List.mem_flatMap.mp ht
    refine List.ne_nil_of_mem (a := named.2) (List.mem_flatMap.mpr ⟨b, hb, ?_⟩)
    rw [(hnews b hb).entriesOf hne]
    exact List.mem_map_of_mem hnamed
  rw [get?_rooms_foldl_apply fun b hb => (hnews b hb).left,
    Room.foldl_listed_of_untouched huntouched, if_neg (by simpa using hsome)]

-- The stored reactions to the message are those of the thread.
theorem reactions_arrived (hkeyed : s.Keyed)
    (hnew : ∀ e ∈ s.events.values, isReactionTo roomId t.eventId e = false) :
    ((later.foldl apply s).events.values.filter (isReactionTo roomId t.eventId)).Perm
      ((Thread.stored roomId t reactions).filter (isReactionTo roomId t.eventId)) := by
  have hkeyed' := hkeyed.foldl_apply later
  have hnodup : (Thread.stored roomId t reactions).Nodup :=
    h.apart_stored.imp fun hne heq => hne (congrArg Event.id? heq)
  refine (List.perm_ext_iff_of_nodup (hkeyed'.nodup_values.filter _) (hnodup.filter _)).mpr ?_
  intro e
  rw [List.mem_filter, List.mem_filter, Table.mem_values_iff, and_congr_left_iff]
  intro hreaction
  simp only [get?_events_arrived hne hnews hsent h]
  constructor
  · rintro ⟨id, ⟨he, -⟩ | ⟨-, he⟩⟩
    · exact he
    · rw [hnew e (Table.mem_values_iff.mpr ⟨id, he⟩)] at hreaction
      cases hreaction
  · intro he
    obtain ⟨id, hid⟩ := h.exists_id?_stored e he
    exact ⟨id, .inl ⟨he, hid⟩⟩

end Arrived

end Store

theorem Reaction.tallies_inRoom {events : List Event} {roomId : String}
    (hdistinct : events.Pairwise fun a b => a.timestamp ≠ b.timestamp) :
    Reaction.Tallies events (Reaction.collect
      ((events.map (·.inRoom roomId)).mergeSort fun a b => a.timestamp ≤ b.timestamp)) := by
  have hsorted : (events.map (·.inRoom roomId)).mergeSort (fun a b => a.timestamp ≤ b.timestamp) =
      (events.mergeSort fun a b => a.timestamp ≤ b.timestamp).map (·.inRoom roomId) := by
    refine (List.map_mergeSort fun a _ b _ => ?_).symm
    rw [Event.timestamp_inRoom, Event.timestamp_inRoom]
  have hvotes (events : List Event) : Reaction.votes (events.map (·.inRoom roomId)) =
      Reaction.votes events := by
    simp only [Reaction.votes, List.filterMap_map, Function.comp_def, Event.vote?_inRoom]
  rw [hsorted, Reaction.collect_eq_firstOfEach, hvotes, ← Reaction.collect_eq_firstOfEach]
  exact Reaction.tallies_collect hdistinct

namespace Store

theorem readerAmong_values (s : Store) : s.readerAmong s.events.values = s.reader := rfl

theorem isLookup_reader (s : Store) : s.IsLookup s.reader.messages :=
  fun _ _ => ⟨s.events.values, .refl _, rfl⟩

-- What is looked up under an identifier is the message of the event that stands there.
theorem Keyed.messages_singleton {s : Store} (hs : s.Keyed) {events : List Event} {e : Event}
    {room : Room} {m : Message} (hevent : s.events.get? e.eventId = some e)
    (hroom : s.rooms.get? e.roomId = some room)
    (hm : e.render? ((s.readerAmong events).contextOf room e.roomId [e]) = some m) :
    (s.readerAmong events).messages e.roomId [e.eventId] = .ok [m] := by
  have hasked : e.eventId ∈ Reader.wanted [e.eventId] :=
    Reader.mem_wanted.mpr ⟨_, List.mem_cons_self, hs _ e hevent⟩
  have hfound : (s.readerAmong events).eventOf? e.roomId e.eventId = some e := by
    simp [Reader.eventOf?, readerAmong, reader, hevent]
  have hmessage : (s.readerAmong events).messageOf? e.roomId e.eventId room = some m :=
    Reader.messageOf?_eq_some.mpr ⟨e, hfound, hm, (Event.render?_eq_some hm).2.2.1⟩
  have hknown : (s.readerAmong events).room e.roomId = .ok (some room) := congrArg Except.ok hroom
  rw [(hs.coherent_readerAmong events e.roomId).messages_eq hknown,
    Reader.wanted_singleton_of_mem hasked]
  simp [hmessage]

-- After every history of batches. A thread of which no reaction is stored yet is sent in whatever order
-- and in whatever batches. The message is looked up as one and the same, with the reactions that the
-- events add up to.
theorem arrival_order_irrelevant {ownUserId roomId : String} {batches : List Batch} {t : Event}
    {reactions : List Event} (hne : roomId ≠ "") (h : Thread roomId t reactions)
    (htimes : (Thread.reactionsTo t reactions).Pairwise fun a b => a.timestamp ≠ b.timestamp)
    (hnew : ∀ e ∈ (ofBatches ownUserId batches).events.values,
      isReactionTo roomId t.eventId e = false) :
    ∃ m : Message, m.id = t.eventId ∧ (∃ context, (t.inRoom roomId).render? context = some m) ∧
      Reaction.Tallies (Thread.reactionsTo t reactions) m.reactions ∧
      ∀ (later : List Batch) (lookup : MessageLookup), (∀ b ∈ later, b.IsNewsOf roomId) →
        (later.flatMap Batch.sent).Perm (t :: reactions) →
        (ofBatches ownUserId (batches ++ later)).IsLookup lookup →
        lookup roomId [t.eventId] = .ok [m] := by
  let s := ofBatches ownUserId batches
  let e := t.inRoom roomId
  let room := (s.rooms.get? roomId).getD (.unnamed s.ownUserId roomId)
  let context : ChatContext :=
    { accountId := room.accountId
      ownUserId := s.ownUserId
      memberNames := s.memberNames roomId
      reactions := reactionsAmong (Thread.stored roomId t reactions) roomId [t.eventId] }
  have heid : e.eventId = t.eventId := Event.eventId_inRoom
  have hhere : e.roomId = roomId := Event.roomId_inRoom (h.here t List.mem_cons_self)
  have hdistinct : ((Thread.stored roomId t reactions).filter
      (isReactionTo roomId t.eventId)).Pairwise fun a b => a.timestamp ≠ b.timestamp := by
    rw [h.filter_stored, List.pairwise_map]
    simpa only [Event.timestamp_inRoom] using htimes
  have hshown : (e.render? context).isSome = true := by
    rw [Event.isSome_render?, Event.isShown_inRoom, h.shown]
  obtain ⟨m, hm⟩ := Option.isSome_iff_exists.mp hshown
  have hmid : m.id = t.eventId := (Event.render?_eq_some hm).2.2.1.trans heid
  refine ⟨m, hmid, ⟨context, hm⟩, ?_, fun later lookup hnews hsent hlookup => ?_⟩
  · have hreactions := Event.reactions_of_render? hm
    rw [heid, getD_reactionsAmong _ roomId (List.mem_singleton_self _), reactionEvents,
      h.filter_stored] at hreactions
    rw [hreactions]
    exact Reaction.tallies_inRoom htimes
  · let f := later.foldl apply s
    have hf : ofBatches ownUserId (batches ++ later) = f := List.foldl_append
    have hkeyed : s.Keyed := keyed_ofBatches ownUserId batches
    have hkeyed' : f.Keyed := hkeyed.foldl_apply later
    obtain ⟨events, hevents, hanswer⟩ := hlookup roomId [t.eventId]
    rw [hf] at hevents hanswer
    have hevent : f.events.get? e.eventId = some e := by
      rw [heid]
      exact (get?_events_arrived hne hnews hsent h _ _).mpr
        (.inl ⟨List.mem_cons_self, Event.id?_inRoom.trans h.own⟩)
    have hroom : f.rooms.get? e.roomId = some room := by
      rw [hhere]
      exact get?_rooms_arrived hne hnews hsent
    -- what is known about the chat is the same whatever came in between
    have hcontext : (f.readerAmong events).contextOf room e.roomId [e] = context := by
      have hfound : reactionsAmong events roomId [t.eventId] =
          reactionsAmong (Thread.stored roomId t reactions) roomId [t.eventId] := by
        refine reactionsAmong_eq_of_perm fun id hid => ?_
        obtain rfl := List.mem_singleton.mp hid
        exact ⟨(hevents.filter _).trans (reactions_arrived hne hnews hsent h hkeyed hnew), hdistinct⟩
      simp only [Reader.contextOf, readerAmong, reader, Reader.orEmpty, List.map_cons, List.map_nil,
        heid, hhere, hfound, f, memberNames_arrived hne hnews hsent h, ownUserId_foldl_apply, context]
    have hmessage := hkeyed'.messages_singleton hevent hroom (hcontext ▸ hm)
    rw [hhere, heid] at hmessage
    exact hanswer.trans hmessage

-- Two reactions to the message.
def plusOnes : List Event := [plusOne "$3" "@x:s" 1, plusOne "$4" "@y:s" 2]

theorem thread_plusOnes : Thread "!a" written plusOnes where
  here := by decide
  shown := by decide
  own := by decide
  reacts := by decide
  named := by decide
  apart := by decide

theorem isNewsOf_batchOf (events : List Event) : (batchOf events).IsNewsOf "!a" where
  left := rfl
  listed := by
    intro entry hentry
    obtain rfl := List.mem_singleton.mp hentry
    show Text.trim "!a" = "!a"
    decide
  untouched := by
    intro entry hentry
    obtain rfl := List.mem_singleton.mp hentry
    rfl

theorem sent_batchOf (events : List Event) : (batchOf events).sent = events :=
  List.append_nil events

-- The later reaction comes first, in a batch of its own, and then the message between the two.
theorem plusOnes_in_any_order :
    Thread "!a" written plusOnes ∧
      ∃ m, m.reactions.map (·.participantId) = ["@x:s", "@y:s"] ∧
        (ofBatches "" [batchOf (written :: plusOnes)]).reader.messages "!a" ["$1"] = .ok [m] ∧
        (ofBatches "" [batchOf [plusOne "$4" "@y:s" 2],
          batchOf [written, plusOne "$3" "@x:s" 1]]).reader.messages "!a" ["$1"] = .ok [m] := by
  have hthread := thread_plusOnes
  obtain ⟨m, -, -, htallies, hlookup⟩ :=
    @arrival_order_irrelevant "" "!a" [] written plusOnes (by decide) hthread (by decide) (by decide)
  have hat (later : List Batch) (hnews : ∀ b ∈ later, b.IsNewsOf "!a")
      (hsent : (later.flatMap Batch.sent).Perm (written :: plusOnes)) :
      (ofBatches "" later).reader.messages "!a" ["$1"] = .ok [m] :=
    hlookup later _ hnews hsent (isLookup_reader _)
  have hvotes : m.reactions.map (·.participantId) = ["@x:s", "@y:s"] := by
    have hsorted : plusOnes.mergeSort (fun a b => a.timestamp ≤ b.timestamp) = plusOnes :=
      List.mergeSort_of_pairwise (by decide)
    have hcollected : Reaction.Tallies plusOnes (Reaction.collect
        (plusOnes.mergeSort fun a b => a.timestamp ≤ b.timestamp)) :=
      Reaction.tallies_collect (by decide)
    rw [htallies.unique hcollected, hsorted]
    decide
  refine ⟨hthread, m, hvotes, ?_, ?_⟩
  · apply hat
    · exact List.forall_mem_singleton.mpr (isNewsOf_batchOf _)
    · rw [List.flatMap_singleton, sent_batchOf]
  · apply hat
    · exact List.forall_mem_cons.mpr ⟨isNewsOf_batchOf _,
        List.forall_mem_singleton.mpr (isNewsOf_batchOf _)⟩
    · rw [List.flatMap_cons, List.flatMap_singleton, sent_batchOf, sent_batchOf]
      exact (List.perm_append_singleton (plusOne "$4" "@y:s" 2)
        [written, plusOne "$3" "@x:s" 1]).symm

-- A reaction to itself.
def echo : Event := plusOne "$1" "@x:s" 1

theorem reactions_echo {m : Message}
    (h : (ofBatches "" [batchOf [echo]]).reader.messages "!a" ["$1"] = .ok [m]) :
    m.reactions ≠ [] := by
  have hhere : (echo.inRoom "!a").roomId = "!a" := Event.roomId_inRoom (.inl rfl)
  have heid : (echo.inRoom "!a").eventId = "$1" := Event.eventId_inRoom
  generalize he : echo.inRoom "!a" = e at hhere heid
  have hkeyed := keyed_ofBatches "" [batchOf [echo]]
  have hevent : (ofBatches "" [batchOf [echo]]).events.get? e.eventId = some e := he ▸ rfl
  have hroom : (ofBatches "" [batchOf [echo]]).rooms.get? e.roomId = some (.unnamed "" "!a") :=
    he ▸ rfl
  have hvalues : (ofBatches "" [batchOf [echo]]).events.values = [e] := he ▸ rfl
  generalize ofBatches "" [batchOf [echo]] = s at h hkeyed hevent hroom hvalues
  have hreacts : [e].filter (isReactionTo e.roomId e.eventId) = [e] := he ▸ rfl
  have hcollected : Reaction.collect [e] ≠ [] := he ▸ by decide
  obtain ⟨found, hm⟩ : ∃ found, e.render? ((s.readerAmong s.events.values).contextOf
      (.unnamed "" "!a") e.roomId [e]) = some found := he ▸ ⟨_, rfl⟩
  have hfound := hkeyed.messages_singleton hevent hroom hm
  rw [readerAmong_values, hhere, heid, h] at hfound
  obtain rfl := List.singleton_inj.mp (Except.ok.inj hfound)
  have hreactions : m.reactions = Reaction.collect ((s.events.values.filter
      (isReactionTo e.roomId e.eventId)).mergeSort fun a b => a.timestamp ≤ b.timestamp) :=
    (Event.reactions_of_render? hm).trans
      (getD_reactionsAmong s.events.values e.roomId (List.mem_singleton_self e.eventId))
  rwa [hreactions, hvalues, hreacts, List.mergeSort_singleton]

-- The message $1 of a room with white space around its name.
def padded : Event := { written with roomId := " !a " }

theorem thread_alone {roomId : String} {t : Event} (hhere : t.roomId = "" ∨ t.roomId = roomId)
    (hshown : t.isShown = true) (hown : t.id? = some t.eventId) : Thread roomId t [] where
  here := by simpa using hhere
  shown := hshown
  own := hown
  reacts := List.forall_mem_nil _
  named := List.forall_mem_nil _
  apart := List.pairwise_singleton _ _

-- A message that is a reaction to itself has that reaction, too; and in a room with white space around
-- its name nothing is found.
theorem threads_can_differ :
    (¬∀ (ownUserId roomId : String) (batches : List Batch) (t : Event) (reactions : List Event),
      roomId ≠ "" → Thread roomId t reactions → (∀ e ∈ reactions, e.isRedacted = false) →
      (reactions.Pairwise fun a b => a.timestamp ≠ b.timestamp) →
      (∀ e ∈ (ofBatches ownUserId batches).events.values, e.reactsTo t.eventId = false ∧
        ∀ x ∈ t :: reactions, e.id? ≠ x.id?) →
      ∃ m : Message, Reaction.Tallies reactions m.reactions ∧
        ∀ (later : List Batch) (lookup : MessageLookup), (∀ b ∈ later, b.IsNewsOf roomId) →
          (later.flatMap Batch.sent).Perm (t :: reactions) →
          (ofBatches ownUserId (batches ++ later)).IsLookup lookup →
          lookup roomId [t.eventId] = .ok [m]) ∧
      ¬∀ (ownUserId roomId : String) (batches : List Batch) (t : Event) (reactions : List Event),
        (∀ e ∈ t :: reactions, e.roomId = roomId) → Thread roomId t reactions →
        (∀ e ∈ reactions, e.isRedacted = false) →
        (reactions.Pairwise fun a b => a.timestamp ≠ b.timestamp) →
        (∀ e ∈ (ofBatches ownUserId batches).events.values, e.reactsTo t.eventId = false ∧
          ∀ x ∈ t :: reactions, e.id? ≠ x.id?) →
        ∃ m : Message, ∀ (later : List Batch) (lookup : MessageLookup),
          (∀ b ∈ later, b.leftRooms = [] ∧ ∀ entry ∈ b.rooms.entries,
            entry.1 = roomId ∧ entry.2.metadataChanged = false) →
          (later.flatMap Batch.sent).Perm (t :: reactions) →
          (ofBatches ownUserId (batches ++ later)).IsLookup lookup →
          lookup roomId [t.eventId] = .ok [m] := by
  have hvalues : (ofBatches "" []).events.values = [] := rfl
  have hempty (t : Event) : ∀ e ∈ (ofBatches "" []).events.values,
      e.reactsTo t.eventId = false ∧ ∀ x ∈ [t], e.id? ≠ x.id? := by
    rw [hvalues]
    exact fun e he => absurd he List.not_mem_nil
  constructor
  · intro h
    have hthread : Thread "!a" echo [] := thread_alone (by decide) (by decide) (by decide)
    obtain ⟨m, htallies, hlookup⟩ := h "" "!a" [] echo [] (by decide) hthread
      (List.forall_mem_nil _) .nil (hempty echo)
    have hnews : ∀ b ∈ [batchOf [echo]], b.IsNewsOf "!a" :=
      List.forall_mem_singleton.mpr (isNewsOf_batchOf _)
    have hsent : ([batchOf [echo]].flatMap Batch.sent).Perm [echo] := by
      rw [List.flatMap_singleton, sent_batchOf]
    have hmessage := hlookup _ _ hnews hsent (isLookup_reader _)
    have hnone : Reaction.Tallies [] [] := ⟨[], .nil, fun e v => by simp [Reaction.Leads], rfl⟩
    exact reactions_echo hmessage (htallies.unique hnone)
  · intro h
    have hthread : Thread " !a " padded [] := thread_alone (by decide) (by decide) (by decide)
    obtain ⟨m, hlookup⟩ := h "" " !a " [] padded [] (by decide) hthread
      (List.forall_mem_nil _) .nil (hempty padded)
    let b : Batch := { rooms := .ofList [(" !a ", { events := [padded] })] }
    have hlisted : ∀ x ∈ [b], x.leftRooms = [] ∧ ∀ entry ∈ x.rooms.entries,
        entry.1 = " !a " ∧ entry.2.metadataChanged = false := by
      intro x hx
      obtain rfl := List.mem_singleton.mp hx
      refine ⟨rfl, fun entry hentry => ?_⟩
      obtain rfl := List.mem_singleton.mp hentry
      exact ⟨rfl, rfl⟩
    have hsent : ([b].flatMap Batch.sent).Perm [padded] := by
      rw [List.flatMap_singleton, show b.sent = [padded] from List.append_nil _]
    have hmessage := hlookup _ _ hlisted hsent (isLookup_reader _)
    have hunknown : (ofBatches "" ([] ++ [b])).rooms.get? " !a " = none := by decide
    cases (messages_of_unknown hunknown _).symm.trans hmessage

end Store

end ChatRelay

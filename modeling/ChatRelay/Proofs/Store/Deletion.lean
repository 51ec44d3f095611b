import Mathlib.Data.List.Induction
import ChatRelay.Proofs.Batch
import ChatRelay.Proofs.Message.Lookup
import ChatRelay.Store.Basic

namespace ChatRelay

namespace Event

-- Whether an event takes back the one with this identifier.
def redacts (e : Event) (id : String) : Bool :=
  e.effectiveType == EventType.redaction && e.target? == some id

theorem redacts_eq_true {e : Event} {id : String} :
    e.redacts id = true ↔ e.effectiveType = EventType.redaction ∧ e.target? = some id := by
  simp [redacts]

-- What is stored under an identifier after an event.
def fate (id : String) (e : Event) (stored : Option Event) : Option Event :=
  if e.id? = some id then some e
  else if e.redacts id then stored.map fun t => { t with redactedBy := some e.eventId }
  else stored

-- What an event says about an identifier, if it speaks of it: whether what is stored under it
-- counts as redacted from then on. A redaction without an identifier does not redact.
def verdict? (id : String) (e : Event) : Option Bool :=
  if e.id? = some id then some e.isRedacted
  else if e.redacts id then some e.id?.isSome
  else none

def lastVerdict? (id : String) (events : List Event) : Option Bool :=
  (events.filterMap (verdict? id)).getLast?

theorem isRedacted_of_verdict? {id : String} {e x : Event} {stored : Option Event} {v : Bool}
    (hv : e.verdict? id = some v) (hx : e.fate id stored = some x) : x.isRedacted = v := by
  unfold verdict? at hv
  unfold fate at hx
  split at hv
  · next hid =>
    rw [if_pos hid] at hx
    obtain rfl := Option.some.inj hx
    exact Option.some.inj hv
  · next hid =>
    rw [if_neg hid] at hx
    split at hv
    · next hredacts =>
      rw [if_pos hredacts] at hx
      obtain ⟨t, -, rfl⟩ := Option.map_eq_some_iff.mp hx
      exact Option.some.inj hv
    · cases hv

theorem fate_of_verdict?_eq_none {id : String} {e : Event} (hv : e.verdict? id = none)
    (stored : Option Event) : e.fate id stored = stored := by
  unfold verdict? at hv
  unfold fate
  split at hv
  · cases hv
  · next hid =>
    rw [if_neg hid]
    split at hv
    · cases hv
    · next hredacts => rw [if_neg hredacts]

-- What is stored in the end follows the last event that speaks of it.
theorem isRedacted_of_lastVerdict? {id : String} {events : List Event} {stored : Option Event}
    {x : Event} {v : Bool} (hv : lastVerdict? id events = some v)
    (hx : events.foldl (fun stored e => e.fate id stored) stored = some x) :
    x.isRedacted = v := by
  induction events using List.reverseRecOn with
  | nil => simp [lastVerdict?] at hv
  | append_singleton events e ih =>
    rw [List.foldl_append, List.foldl_cons, List.foldl_nil] at hx
    cases he : e.verdict? id with
    | some w =>
      obtain rfl : w = v := by simpa [lastVerdict?, he] using hv
      exact isRedacted_of_verdict? he hx
    | none =>
      rw [fate_of_verdict?_eq_none he] at hx
      exact ih (by simpa [lastVerdict?, he] using hv) hx

theorem id?_of_fate {id : String} {e x : Event} {stored : Option Event}
    (hstored : ∀ t, stored = some t → t.id? = some id) (hx : e.fate id stored = some x) :
    x.id? = some id := by
  unfold fate at hx
  split at hx
  · next hid =>
    obtain rfl := Option.some.inj hx
    exact hid
  · split at hx
    · obtain ⟨t, ht, rfl⟩ := Option.map_eq_some_iff.mp hx
      exact hstored t ht
    · exact hstored x hx

-- What is announced as deleted, an event speaks of.
theorem verdict?_of_deletes {e : Event} {id : String} (h : e.effect = .deletes (some id)) :
    (e.verdict? id).isSome = true := by
  unfold verdict?
  split
  · rfl
  · next hid =>
    simp only [effect] at h
    split at h
    · next hredaction =>
      have hredacts : e.redacts id = true := by
        simp [redacts, hredaction, Effect.deletes.inj h]
      rw [if_pos hredacts]
      rfl
    · split at h
      · exact absurd (Effect.deletes.inj h) hid
      · split at h
        · cases h
        · split at h <;> cases h

theorem verdict?_inRoom (e : Event) (roomId id : String) :
    (e.inRoom roomId).verdict? id = e.verdict? id := by
  unfold inRoom
  split <;> rfl

theorem roomId_inRoom {e : Event} {roomId : String} (h : e.roomId = "" ∨ e.roomId = roomId) :
    (e.inRoom roomId).roomId = roomId := by
  unfold inRoom
  split
  · rfl
  · next hne => exact h.resolve_left hne

theorem lastVerdict?_of_mem {id : String} {events : List Event} {e : Event} (he : e ∈ events)
    (h : (e.verdict? id).isSome = true) : ∃ v, lastVerdict? id events = some v := by
  obtain ⟨v, hv⟩ := Option.isSome_iff_exists.mp h
  refine Option.isSome_iff_exists.mp ?_
  rw [lastVerdict?, List.getLast?_isSome]
  exact List.ne_nil_of_mem (List.mem_filterMap.mpr ⟨e, he, hv⟩)

end Event

-- The events of a batch in the order in which a store takes them.
def Batch.recorded (b : Batch) : List Event :=
  b.namedRooms.flatMap fun (roomId, room) => room.events.map (·.inRoom roomId)

theorem Batch.mem_recorded {b : Batch} {roomId : String} {room : RoomSync} {e : Event}
    (hroom : (roomId, room) ∈ b.namedRooms) (he : e ∈ room.events) :
    e.inRoom roomId ∈ b.recorded :=
  List.mem_flatMap.mpr ⟨_, hroom, List.mem_map.mpr ⟨e, he, rfl⟩⟩

namespace Store

theorem get?_record (s : Store) (e : Event) (id : String) :
    (s.record e).events.get? id = e.fate id (s.events.get? id) := by
  have hmember : ∀ s : Store, (s.noteMember e).events = s.events := by
    intro s
    unfold noteMember
    split
    · split <;> rfl
    · rfl
  have hredact : (s.redact e).events.get? id =
      if e.redacts id then
        (s.events.get? id).map fun t => { t with redactedBy := some e.eventId }
      else s.events.get? id := by
    unfold redact Event.redacts
    by_cases hredaction : e.effectiveType = EventType.redaction
    · rw [if_pos hredaction]
      cases ht : e.target? with
      | none => simp
      | some target =>
        by_cases heq : id = target
        · simp [hredaction, heq, Table.get?_modify]
        · simp [heq, Ne.symm heq, Table.get?_modify]
    · simp [hredaction]
  unfold record keep Event.fate
  cases hid : e.id? with
  | none =>
    simp only [hmember, hredact]
    simp
  | some own =>
    simp only [Table.get?_insert, hmember, hredact, Option.some.injEq]
    by_cases heq : id = own
    · simp [heq]
    · simp [heq, Ne.symm heq]

-- The store after the rooms that were left are out of it.
def afterLeaving (s : Store) (b : Batch) : Store := (b.leftRooms.map Text.trim).foldl leave s

theorem get?_afterLeaving (s : Store) (b : Batch) (id : String) :
    (s.afterLeaving b).events.get? id =
      (s.events.get? id).filter (·.roomId ∉ b.leftRooms.map Text.trim) := by
  unfold afterLeaving
  induction b.leftRooms.map Text.trim generalizing s with
  | nil =>
    rw [List.foldl_nil]
    cases s.events.get? id <;> rfl
  | cons roomId rest ih =>
    rw [List.foldl_cons, ih]
    simp only [leave, Table.get?_filter, Option.filter_filter]
    congr 1
    funext e
    by_cases h : e.roomId = roomId <;> simp [h]

-- A view of a store in which it does not show that a room is entered follows the events of a batch.
theorem view_apply {α : Type} (view : Store → α) (step : α → Event → α)
    (henter : ∀ s roomId metadata, view (s.enter roomId metadata) = view s)
    (hrecord : ∀ s e, view (s.record e) = step (view s) e) (s : Store) (b : Batch) :
    view (s.apply b) = b.recorded.foldl step (view (s.afterLeaving b)) := by
  have hrooms : ∀ (rooms : List (String × RoomSync)) (s : Store),
      view (rooms.foldl (fun s (roomId, room) => s.applyRoom roomId room) s) =
        (rooms.flatMap fun (roomId, room) => room.events.map (·.inRoom roomId)).foldl step
          (view s) := by
    intro rooms
    induction rooms with
    | nil => exact fun _ => rfl
    | cons room rooms ih =>
      intro s
      rw [List.foldl_cons, ih, List.flatMap_cons, List.foldl_append,
        ← henter s room.1 room.2.metadata]
      congr 1
      exact (List.foldl_hom view fun s e => (hrecord s e).symm).symm
  exact hrooms b.namedRooms (s.afterLeaving b)

theorem get?_apply (s : Store) (b : Batch) (id : String) :
    (s.apply b).events.get? id =
      b.recorded.foldl (fun stored e => e.fate id stored)
        ((s.afterLeaving b).events.get? id) :=
  view_apply (fun s => s.events.get? id) (fun stored e => e.fate id stored) (fun _ _ _ => rfl)
    (fun s e => s.get?_record e id) s b

-- Every event stands under its own identifier.
def Keyed (s : Store) : Prop := ∀ id e, s.events.get? id = some e → e.id? = some id

theorem Keyed.leave {s : Store} (hs : s.Keyed) (roomId : String) : (s.leave roomId).Keyed := by
  intro id e he
  simp only [Store.leave, Table.get?_filter, Option.filter_eq_some_iff] at he
  exact hs id e he.1

theorem Keyed.afterLeaving {s : Store} (hs : s.Keyed) (b : Batch) : (s.afterLeaving b).Keyed := by
  unfold Store.afterLeaving
  induction b.leftRooms.map Text.trim generalizing s with
  | nil => exact hs
  | cons roomId rest ih => exact ih (hs.leave roomId)

theorem Keyed.apply {s : Store} (hs : s.Keyed) (b : Batch) : (s.apply b).Keyed := by
  intro id e he
  rw [get?_apply] at he
  have hleft := hs.afterLeaving b id
  revert he hleft
  generalize (s.afterLeaving b).events.get? id = stored
  induction b.recorded generalizing stored with
  | nil => exact fun he hleft => hleft e he
  | cons first rest ih => exact fun he hleft => ih _ he fun _ => Event.id?_of_fate hleft

theorem Keyed.foldl_apply {s : Store} (hs : s.Keyed) (batches : List Batch) :
    (batches.foldl Store.apply s).Keyed := by
  induction batches generalizing s with
  | nil => exact hs
  | cons b batches ih => exact ih (hs.apply b)

-- What batches add up to.
def ofBatches (ownUserId : String) (batches : List Batch) : Store :=
  batches.foldl apply { ownUserId }

theorem keyed_ofBatches (ownUserId : String) (batches : List Batch) :
    (ofBatches ownUserId batches).Keyed :=
  Keyed.foldl_apply (fun id e he => by cases he) batches

theorem record_rooms (s : Store) (e : Event) : (s.record e).rooms = s.rooms := by
  have hredact : (s.redact e).rooms = s.rooms := by
    unfold redact
    split
    · split <;> rfl
    · rfl
  have hmember : ((s.redact e).noteMember e).rooms = (s.redact e).rooms := by
    unfold noteMember
    split
    · split <;> rfl
    · rfl
  unfold record keep
  split <;> exact hmember.trans hredact

theorem foldl_record_rooms (s : Store) (events : List Event) :
    (events.foldl record s).rooms = s.rooms := by
  induction events generalizing s with
  | nil => rfl
  | cons e events ih => exact (ih _).trans (s.record_rooms e)

-- Applying a room makes it known and forgets no other.
theorem exists_room_applyRoom (s : Store) (roomId : String) (room : RoomSync) {chatId : String}
    (h : chatId = roomId ∨ ∃ r, s.rooms.get? chatId = some r) :
    ∃ r, (s.applyRoom roomId room).rooms.get? chatId = some r := by
  simp only [applyRoom, foldl_record_rooms, enter, Table.get?_insert]
  by_cases heq : chatId = roomId
  · exact ⟨_, if_pos heq⟩
  · obtain ⟨r, hr⟩ := h.resolve_left heq
    exact ⟨r, by rw [if_neg heq, hr]⟩

theorem exists_room_apply (s : Store) {b : Batch} {chatId : String} {room : RoomSync}
    (h : (chatId, room) ∈ b.namedRooms) : ∃ r, (s.apply b).rooms.get? chatId = some r := by
  have hrooms : ∀ (rooms : List (String × RoomSync)) (s : Store),
      ((∃ room, (chatId, room) ∈ rooms) ∨ ∃ r, s.rooms.get? chatId = some r) →
      ∃ r, (rooms.foldl (fun s (roomId, room) => s.applyRoom roomId room) s).rooms.get? chatId =
        some r := by
    intro rooms
    induction rooms with
    | nil =>
      rintro s (⟨room, hm⟩ | hr)
      · cases hm
      · exact hr
    | cons first rooms ih =>
      intro s hs
      refine ih _ ?_
      rcases hs with ⟨room, hm⟩ | hr
      · rcases List.mem_cons.mp hm with rfl | hm
        · exact .inr (s.exists_room_applyRoom chatId room (.inl rfl))
        · exact .inl ⟨room, hm⟩
      · exact .inr (s.exists_room_applyRoom first.1 first.2 (.inr hr))
  exact hrooms b.namedRooms (s.afterLeaving b) (.inl ⟨room, h⟩)

-- An event of the batch that speaks of each message that is announced as deleted.
theorem lastVerdict?_of_deleted {b : Batch} {d : Change} (hd : d ∈ b.changes)
    (hkind : d.kind = .messageDeleted) {id : String} (hid : id ∈ d.ids) :
    ∃ v, Event.lastVerdict? id b.recorded = some v := by
  obtain ⟨room, hroom, hids⟩ := Batch.deleted_of_mem_changes hd hkind
  rw [hids, RoomChanges.mem_deleted_ofRoom] at hid
  obtain ⟨e, he, heffect⟩ := hid
  refine Event.lastVerdict?_of_mem (Batch.mem_recorded hroom he) ?_
  rw [Event.verdict?_inRoom]
  exact Event.verdict?_of_deletes heffect

theorem mem_eventsOf_reader {s : Store} {chatId : String} {ids : List String} {e : Event} :
    e ∈ s.reader.eventsOf chatId ids ↔
      ∃ asked ∈ Reader.wanted ids, s.events.get? asked = some e ∧ e.roomId = chatId := by
  have heventOf : ∀ asked, s.reader.eventOf? chatId asked = some e ↔
      s.events.get? asked = some e ∧ e.roomId = chatId := by
    intro asked
    refine ⟨fun h => ?_, fun ⟨hget, hchat⟩ => ?_⟩
    · obtain ⟨hevent, hchat⟩ := Reader.eventOf?_eq_some h
      exact ⟨Except.ok.inj hevent, hchat⟩
    · simp [Reader.eventOf?, reader, hget, hchat]
  simp only [Reader.eventsOf, List.mem_filterMap, heventOf]

-- After every history of batches. None of the messages that a batch announces as deleted can be
-- looked up right after it, unless the last event of the batch that speaks of one leaves it
-- unredacted and what is stored then under its identifier is a message of the chat.
theorem deleted_gone_iff {ownUserId : String} {batches : List Batch} {b : Batch} {d : Change}
    (hd : d ∈ b.changes) (hkind : d.kind = .messageDeleted) :
    let s := (ofBatches ownUserId batches).apply b
    s.reader.messages d.chatId d.ids.toList = .ok [] ↔
      ∀ id ∈ d.ids, Event.lastVerdict? id b.recorded = some false →
        ∀ e, s.events.get? id = some e → e.roomId = d.chatId → e.eventId = id →
          e.isShown = false := by
  intro s
  have hkeyed : s.Keyed := (keyed_ofBatches ownUserId batches).apply b
  obtain ⟨room, hroom, -⟩ := Batch.deleted_of_mem_changes hd hkind
  obtain ⟨r, hr⟩ := (ofBatches ownUserId batches).exists_room_apply hroom
  have hreader : s.reader.room d.chatId = .ok (some r) := congrArg Except.ok hr
  have htrimmed := Batch.trimmed_changes hd
  rw [Reader.messages_eq_nil_iff hreader]
  constructor
  · intro h id hid _ e he hchat heid
    have hwanted : id ∈ Reader.wanted d.ids.toList := by
      refine Reader.mem_wanted.mpr ⟨id, hid, ?_⟩
      rw [← heid]
      exact (hkeyed id e he).trans (congrArg some heid.symm)
    have hin := mem_eventsOf_reader.mpr ⟨id, hwanted, he, hchat⟩
    cases hshown : e.isShown with
    | false => rfl
    | true => exact absurd (List.mem_map.mpr ⟨id, hid, by rw [htrimmed id hid, heid]⟩) (h e hin hshown)
  · intro h e hin hshown hmem
    obtain ⟨asked, hwanted, he, hchat⟩ := mem_eventsOf_reader.mp hin
    obtain ⟨id, hid, heid⟩ := List.mem_map.mp hmem
    rw [htrimmed id hid] at heid
    subst heid
    -- The event stands under its own identifier, which is trimmed.
    have hasked : asked = e.eventId := by
      have hown := Text.nonBlank?_eq_some_iff.mp (hkeyed asked e he)
      rw [hown.1, htrimmed _ hid]
    subst hasked
    obtain ⟨v, hv⟩ := lastVerdict?_of_deleted hd hkind hid
    have hredacted : e.isRedacted = v := by
      rw [get?_apply] at he
      exact Event.isRedacted_of_lastVerdict? hv he
    have hshown' : e.isRedacted = false := by
      simp only [Event.isShown, Bool.and_eq_true, Bool.not_eq_true'] at hshown
      exact hshown.1.1.1
    rw [hshown'] at hredacted
    rw [← hredacted] at hv
    rw [h _ hid hv e he hchat rfl] at hshown
    cases hshown

-- A message of the chat !a, and a redaction of it.
def written : Event :=
  { eventId := "$1", type := EventType.message, content := .mk [("body", .string "one")] }

def takenBack : Event := { eventId := "$2", type := EventType.redaction, relatesTo := some "$1" }

def batchOf (events : List Event) : Batch := { rooms := .ofList [("!a", { events })] }

def deletion : Change := .ofMessages .messageDeleted "!a" (.ofList ["$1"])

theorem takenBack_gone :
    deletion ∈ (batchOf [takenBack]).changes ∧
      ((ofBatches "" [batchOf [written]]).apply (batchOf [takenBack])).reader.messages "!a" ["$1"] =
        .ok [] := by
  have hd : deletion ∈ (batchOf [takenBack]).changes := by decide
  refine ⟨hd, (deleted_gone_iff hd rfl).mpr fun id hid hv => ?_⟩
  obtain rfl : id = "$1" := List.mem_singleton.mp hid
  exact absurd hv (by decide)

-- A redaction that comes before its message in the batch does not reach it.
theorem deleted_can_stay :
    ¬∀ (ownUserId : String) (batches : List Batch) (b : Batch) (d : Change), d ∈ b.changes →
      d.kind = .messageDeleted →
      ((ofBatches ownUserId batches).apply b).reader.messages d.chatId d.ids.toList = .ok [] := by
  intro h
  let s := (ofBatches "" []).apply (batchOf [takenBack, written])
  have hgone : s.reader.messages "!a" ["$1"] = .ok [] :=
    h "" [] (batchOf [takenBack, written]) deletion (by decide) rfl
  have hroom : s.reader.room "!a" = .ok (some (Room.unnamed "" "!a")) := rfl
  rw [Reader.messages_eq_nil_iff hroom] at hgone
  have hstored : written.inRoom "!a" ∈ s.reader.eventsOf "!a" ["$1"] :=
    mem_eventsOf_reader.mpr ⟨"$1", by decide, rfl, rfl⟩
  exact hgone _ hstored (by decide) (by decide)

end Store

end ChatRelay

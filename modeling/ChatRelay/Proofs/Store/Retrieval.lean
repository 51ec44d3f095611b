import ChatRelay.Proofs.Store.Idempotence
import ChatRelay.Proofs.Store.Redaction

namespace ChatRelay

namespace Event

-- Of the events of one identifier the only one is the last.
theorem lastOwn?_of_countP_eq_one {id : String} {events : List Event} {e : Event} (he : e ∈ events)
    (hid : e.id? = some id) (honly : events.countP (·.id? = some id) = 1) :
    ∃ after, lastOwn? id events = some (e, after) := by
  cases hown : lastOwn? id events with
  | none => exact absurd hid (lastOwn?_eq_none_iff.mp hown e he)
  | some found =>
    obtain ⟨hfound, hfoundId⟩ := mem_of_lastOwn? hown
    rw [List.countP_eq_length_filter] at honly
    obtain ⟨only, honly⟩ := List.length_eq_one_iff.mp honly
    have hmem (x : Event) (hx : x ∈ events) (hxid : x.id? = some id) : x = only := by
      have hfiltered : x ∈ events.filter (·.id? = some id) :=
        List.mem_filter.mpr ⟨hx, decide_eq_true hxid⟩
      rw [honly] at hfiltered
      exact List.mem_singleton.mp hfiltered
    refine ⟨found.2, ?_⟩
    rw [hmem e he hid, ← hmem found.1 hfound hfoundId]

-- What shows as a message does so in whatever room it is, unless it is redacted.
theorem isShown_marked_inRoom {e : Event} (htype : EventType.isMessageLike e.effectiveType = true)
    (hedit : e.isEdit = false) (hcontent : e.effectiveContent.isObject = true) (roomId : String)
    (redaction : Option String) :
    ((e.inRoom roomId).marked redaction).isShown =
      !((e.inRoom roomId).marked redaction).isRedacted := by
  have hfields : ((e.inRoom roomId).marked redaction).effectiveType = e.effectiveType ∧
      ((e.inRoom roomId).marked redaction).isEdit = e.isEdit ∧
      ((e.inRoom roomId).marked redaction).effectiveContent = e.effectiveContent := by
    unfold inRoom
    split <;> cases redaction <;> exact ⟨rfl, rfl, rfl⟩
  obtain ⟨hsameType, hsameEdit, hsameContent⟩ := hfields
  simp [isShown, hsameType, hsameEdit, hsameContent, htype, hedit, hcontent]

theorem eventId_marked_inRoom (e : Event) (roomId : String) (redaction : Option String) :
    ((e.inRoom roomId).marked redaction).eventId = e.eventId := by
  unfold inRoom
  split <;> cases redaction <;> rfl

end Event

namespace Batch

-- A batch brings a message of a chat under an identifier: the event is a message that shows, and
-- no other event of the batch has the identifier.
structure Brings (b : Batch) (chatId id : String) (e : Event) : Prop where
  listed : ∃ entry ∈ b.entriesOf chatId, e ∈ entry.events
  own : e.id? = some id
  only : b.recorded.countP (·.id? = some id) = 1
  type : e.effectiveType = EventType.message ∨ e.effectiveType = EventType.sticker
  unredacted : e.isRedacted = false
  unedited : e.isEdit = false
  content : e.effectiveContent.isObject = true
  here : e.roomId = "" ∨ e.roomId = chatId

-- A batch announces a message of a chat as new or changed.
def Announces (b : Batch) (chatId id : String) : Prop :=
  ∃ c ∈ b.changes, c.kind = .messageUpserted ∧ c.chatId = chatId ∧ id ∈ c.ids

theorem Brings.recorded {b : Batch} {chatId id : String} {e : Event} (hb : b.Brings chatId id e) :
    e.inRoom chatId ∈ b.recorded := by
  obtain ⟨entry, hentry, he⟩ := hb.listed
  exact mem_recorded (mem_entriesOf.mp hentry) he

-- No redaction stands in the entry that a message is announced for.
theorem Announces.entry {b : Batch} {chatId id : String} (h : b.Announces chatId id) :
    ∃ entry ∈ b.entriesOf chatId, id ∈ (RoomChanges.ofRoom entry).upserted ∧
      ∀ x ∈ entry.events, x.redacts id = false := by
  obtain ⟨c, hc, hkind, rfl, hid⟩ := h
  obtain ⟨entry, hentry, hids⟩ := upserted_of_mem_changes hc hkind
  rw [hids, IdSet.mem_diff, RoomChanges.mem_deleted_ofRoom] at hid
  refine ⟨entry, mem_entriesOf.mpr hentry, hid.1, fun x hx => ?_⟩
  by_contra hredacts
  obtain ⟨hredaction, htarget⟩ := Event.redacts_eq_true.mp (eq_true_of_ne_false hredacts)
  exact hid.2 ⟨x, hx, by simp [Event.effect, hredaction, htarget]⟩

end Batch

namespace Store

-- A lookup of the identifier in the chat finds one message, and it has the identifier.
def Finds (s : Store) (chatId id : String) : Prop :=
  ∃ m, s.reader.messages chatId [id] = .ok [m] ∧ m.id = id

-- What is stored under an identifier is found in its chat if that is known and it is a message with
-- the identifier and nothing around it.
theorem finds_iff {s : Store} (hs : s.Keyed) {id : String} {x : Event}
    (hx : s.events.get? id = some x) :
    s.Finds x.roomId id ↔
      (s.rooms.get? x.roomId).isSome = true ∧ x.eventId = id ∧ x.isShown = true := by
  have hreader : s.reader.room x.roomId = .ok (s.rooms.get? x.roomId) := rfl
  have hsome : s.Finds x.roomId id ↔ s.reader.messages x.roomId [id] ≠ .ok [] := by
    constructor
    · rintro ⟨m, hm, -⟩ hnil
      cases hm.symm.trans hnil
    · intro hsome
      have hid : Text.trim id = id := Event.trim_of_id? (hs id x hx)
      exact (Reader.messages_singleton_cases hreader hid).resolve_left hsome
  rw [hsome, ne_eq, messages_singleton_eq_nil_iff hs hx]
  simp

-- What the store has of a message that a batch brings. It is of the chat, shows unless it is
-- redacted, and is redacted if the last event that speaks of it says so.
theorem stored_of_brings (s : Store) {b : Batch} {chatId id : String} {e : Event}
    (hb : b.Brings chatId id e) :
    ∃ x, (s.apply b).events.get? id = some x ∧ x.roomId = chatId ∧ x.eventId = e.eventId ∧
      x.isShown = !x.isRedacted ∧ Event.lastVerdict? id b.recorded = some x.isRedacted := by
  have hid : (e.inRoom chatId).id? = some id := by
    rw [← hb.own]
    unfold Event.inRoom
    split <;> rfl
  obtain ⟨after, hown⟩ := Event.lastOwn?_of_countP_eq_one hb.recorded hid hb.only
  let x := (e.inRoom chatId).marked (Event.lastMark? id after)
  have hstored : (s.apply b).events.get? id = some x := by
    rw [get?_apply, Event.foldl_fate, Event.left?, hown]
  have htype : EventType.isMessageLike e.effectiveType = true := by
    rcases hb.type with htype | htype <;> rw [htype] <;> decide
  have hspeaks : ((e.inRoom chatId).verdict? id).isSome = true := by
    rw [Event.verdict?, if_pos hid]
    rfl
  obtain ⟨v, hv⟩ := Event.lastVerdict?_of_mem hb.recorded hspeaks
  have hredacted : x.isRedacted = v := by
    rw [get?_apply] at hstored
    exact Event.isRedacted_of_lastVerdict? hv hstored
  refine ⟨x, hstored, ?_, Event.eventId_marked_inRoom e chatId _,
    Event.isShown_marked_inRoom htype hb.unedited hb.content chatId _, hredacted ▸ hv⟩
  rw [Event.roomId_marked, Event.roomId_inRoom hb.here]

-- After every history of batches, a batch that brings a message and announces it. A lookup finds
-- the message right after the batch exactly if its identifier was sent without anything around it
-- and the last event of the batch that speaks of it leaves it unredacted. No redaction of it stands
-- in the entry that it is announced for.
theorem announced_found_iff {ownUserId chatId id : String} {batches : List Batch} {b : Batch}
    {e : Event} (hb : b.Brings chatId id e) (hannounced : b.Announces chatId id) :
    (((ofBatches ownUserId batches).apply b).Finds chatId id ↔
        e.eventId = id ∧ Event.lastVerdict? id b.recorded = some false) ∧
      ∃ entry ∈ b.entriesOf chatId, id ∈ (RoomChanges.ofRoom entry).upserted ∧
        ∀ x ∈ entry.events, x.redacts id = false := by
  refine ⟨?_, hannounced.entry⟩
  have hkeyed := (keyed_ofBatches ownUserId batches).apply b
  obtain ⟨entry, hentry, -⟩ := hb.listed
  obtain ⟨room, hroom⟩ :=
    (ofBatches ownUserId batches).exists_room_apply (Batch.mem_entriesOf.mp hentry)
  obtain ⟨x, hstored, rfl, heventId, hshown, hverdict⟩ :=
    (ofBatches ownUserId batches).stored_of_brings hb
  rw [finds_iff hkeyed hstored, hroom, heventId, hshown, hverdict]
  simp

-- The message as it was written, under any identifier that is trimmed to its own.
theorem brings_written {b : Batch} {entry : RoomSync} {eventId : String}
    (hentry : (b.entriesOf "!a").head? = some entry)
    (he : entry.events = [{ written with eventId }]) (hid : Text.nonBlank? eventId = some "$1")
    (honly : b.recorded.countP (·.id? = some "$1") = 1) :
    b.Brings "!a" "$1" { written with eventId } where
  listed := ⟨entry, List.mem_of_mem_head? hentry, he ▸ List.mem_singleton_self _⟩
  own := hid
  only := honly
  type := .inl rfl
  unredacted := rfl
  unedited := rfl
  content := rfl
  here := .inl rfl

theorem announces_written {b : Batch}
    (h : .ofMessages .messageUpserted "!a" (.ofList ["$1"]) ∈ b.changes) : b.Announces "!a" "$1" :=
  ⟨_, h, rfl, rfl, List.mem_singleton_self "$1"⟩

-- A message, and a redaction of it that stands under another room.
def withdrawal (roomId : String) : Batch :=
  { rooms := .ofList [("!a", { events := [written] }), (roomId, { events := [takenBack] })] }

-- A redaction under a room that comes before that of the message does not reach it.
theorem withdrawnBefore_found :
    (withdrawal "!A").Brings "!a" "$1" written ∧ (withdrawal "!A").Announces "!a" "$1" ∧
      ((ofBatches "" []).apply (withdrawal "!A")).Finds "!a" "$1" := by
  have hb : (withdrawal "!A").Brings "!a" "$1" written :=
    brings_written rfl rfl (by decide) (by decide)
  have hannounced : (withdrawal "!A").Announces "!a" "$1" := announces_written (by decide)
  have hfound := (@announced_found_iff "" "!a" "$1" [] _ _ hb hannounced).1
  exact ⟨hb, hannounced, hfound.mpr ⟨rfl, by decide⟩⟩

-- A message whose identifier was sent with a blank before it is not found, and neither is one that
-- a redaction under another room takes back.
theorem announced_can_be_missing :
    (¬∀ (ownUserId chatId id : String) (batches : List Batch) (b : Batch) (e : Event),
        b.Brings chatId id e → b.Announces chatId id →
        ((ofBatches ownUserId batches).apply b).Finds chatId id) ∧
      ¬∀ (ownUserId chatId id : String) (batches : List Batch) (b : Batch) (e : Event),
        b.Brings chatId id e → b.Announces chatId id → e.eventId = id →
        ((ofBatches ownUserId batches).apply b).Finds chatId id := by
  have hkeyed (b : Batch) : ((ofBatches "" []).apply b).Keyed := (keyed_ofBatches "" []).apply b
  constructor
  · intro h
    let b := batchOf [{ written with eventId := " $1" }]
    have hb : b.Brings "!a" "$1" { written with eventId := " $1" } :=
      brings_written rfl rfl (by decide) (by decide)
    have hfound := h "" "!a" "$1" [] b _ hb (announces_written (by decide))
    have hstored : ((ofBatches "" []).apply b).events.get? "$1" =
        some { written with roomId := "!a", eventId := " $1" } := rfl
    exact absurd ((finds_iff (hkeyed b) hstored).mp hfound).2.1 (by decide)
  · intro h
    have hb : (withdrawal "!b").Brings "!a" "$1" written :=
      brings_written rfl rfl (by decide) (by decide)
    have hfound := h "" "!a" "$1" [] (withdrawal "!b") _ hb (announces_written (by decide)) rfl
    have hstored : ((ofBatches "" []).apply (withdrawal "!b")).events.get? "$1" =
        some { written with roomId := "!a", redactedBy := some "$2" } := rfl
    exact absurd ((finds_iff (hkeyed _) hstored).mp hfound).2.2 (by decide)

end Store

end ChatRelay

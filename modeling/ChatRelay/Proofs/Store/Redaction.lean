import ChatRelay.Proofs.Store.Deletion

namespace ChatRelay

namespace Event

-- What is stored stays as it is where no event speaks of it.
theorem foldl_fate_of_lastVerdict?_eq_none {id : String} {events : List Event}
    (hv : lastVerdict? id events = none) (stored : Option Event) :
    events.foldl (fun stored e => e.fate id stored) stored = stored := by
  have hsilent : ∀ e ∈ events, e.verdict? id = none :=
    List.filterMap_eq_nil_iff.mp (List.getLast?_eq_none_iff.mp hv)
  clear hv
  induction events generalizing stored with
  | nil => rfl
  | cons e events ih =>
    rw [List.foldl_cons, fate_of_verdict?_eq_none (hsilent e List.mem_cons_self)]
    exact ih stored fun x hx => hsilent x (List.mem_cons_of_mem e hx)

theorem isSome_fate {id : String} {stored : Option Event} (h : stored.isSome = true) (e : Event) :
    (e.fate id stored).isSome = true := by
  unfold fate
  split
  · rfl
  · split
    · simpa using h
    · exact h

-- Whether what is stored in the end is redacted.
theorem exists_foldl_fate (id : String) (events : List Event) (e : Event) :
    ∃ x, events.foldl (fun stored e => e.fate id stored) (some e) = some x ∧
      x.isRedacted = (lastVerdict? id events).getD e.isRedacted := by
  have hsome : ∀ stored : Option Event, stored.isSome = true →
      (events.foldl (fun stored e => e.fate id stored) stored).isSome = true := by
    induction events with
    | nil => exact fun _ h => h
    | cons first events ih => exact fun stored h => ih _ (isSome_fate h first)
  obtain ⟨x, hx⟩ := Option.isSome_iff_exists.mp (hsome (some e) rfl)
  refine ⟨x, hx, ?_⟩
  cases hv : lastVerdict? id events with
  | some v => exact isRedacted_of_lastVerdict? hv hx
  | none =>
    rw [foldl_fate_of_lastVerdict?_eq_none hv] at hx
    obtain rfl := Option.some.inj hx
    rfl

end Event

namespace Store

-- None of the batches leaves the room of what is stored under an identifier when the batch comes.
def Stays (id : String) : Store → List Batch → Prop
  | _, [] => True
  | s, b :: later =>
    (∀ e, s.events.get? id = some e → e.roomId ∉ b.leftRooms.map Text.trim) ∧
      Stays id (s.apply b) later

theorem get?_afterLeaving_of_stays {s : Store} {b : Batch} {id : String}
    (h : ∀ e, s.events.get? id = some e → e.roomId ∉ b.leftRooms.map Text.trim) :
    (s.afterLeaving b).events.get? id = s.events.get? id := by
  rw [get?_afterLeaving]
  cases hs : s.events.get? id with
  | none => rfl
  | some e => simp only [Option.filter_some, h e hs, not_false_eq_true, decide_true, if_true]

-- As long as its room is not left, what is stored follows the events of the batches alone.
theorem get?_foldl_apply_of_stays {s : Store} {later : List Batch} {id : String}
    (h : Stays id s later) :
    (later.foldl apply s).events.get? id =
      (later.flatMap Batch.recorded).foldl (fun stored e => e.fate id stored)
        (s.events.get? id) := by
  induction later generalizing s with
  | nil => rfl
  | cons b later ih =>
    obtain ⟨hb, hlater⟩ := h
    rw [List.foldl_cons, ih hlater, get?_apply, get?_afterLeaving_of_stays hb, List.flatMap_cons,
      List.foldl_append]

theorem messages_of_unknown {s : Store} {chatId : String} (hroom : s.rooms.get? chatId = none)
    (ids : List String) : s.reader.messages chatId ids = .ok [] := by
  have hreader : s.reader.room chatId = .ok none := congrArg Except.ok hroom
  unfold Reader.messages
  rw [hreader]
  rfl

-- Nothing is found under an identifier in the chat of what is stored there, unless that is a
-- message, the chat is known and the message has the identifier without anything around it.
theorem messages_singleton_eq_nil_iff {s : Store} (hs : s.Keyed) {id : String} {x : Event}
    (hx : s.events.get? id = some x) :
    s.reader.messages x.roomId [id] = .ok [] ↔
      ((s.rooms.get? x.roomId).isSome = true → x.eventId = id → x.isShown = false) := by
  cases hroom : s.rooms.get? x.roomId with
  | none => simp [messages_of_unknown hroom]
  | some room =>
    have hreader : s.reader.room x.roomId = .ok (some room) := congrArg Except.ok hroom
    have htrim : Text.trim id = id := Event.trim_of_id? (hs id x hx)
    have hwanted : ∀ asked, asked ∈ Reader.wanted [id] ↔ asked = id := by
      intro asked
      have hid : Text.nonBlank? id = some id :=
        Text.nonBlank?_eq_some_iff.mpr
          ⟨htrim.symm, (Text.nonBlank?_eq_some_iff.mp (hs id x hx)).2⟩
      simp [Reader.mem_wanted, hid, eq_comm]
    rw [Reader.messages_eq_nil_iff hreader]
    simp only [mem_eventsOf_reader, hwanted, List.map_cons, List.map_nil, List.mem_singleton, htrim,
      Option.isSome_some, true_implies]
    constructor
    · intro h hid
      cases hshown : x.isShown with
      | false => rfl
      | true => exact absurd hid (h x ⟨id, rfl, hx, rfl⟩ hshown)
    · rintro h e ⟨asked, rfl, he, -⟩ hshown hid
      obtain rfl := Option.some.inj (hx.symm.trans he)
      rw [h hid] at hshown
      cases hshown

-- After every history of batches that leaves an event redacted, and every further one that does not
-- leave its room. Something is stored under the identifier all the time. It is redacted unless the
-- last of the further events that speaks of the identifier leaves it unredacted, and nothing is found
-- under the identifier unless it is unredacted then, a message, and of a chat that is known.
theorem redacted_still_iff {ownUserId id : String} {batches later : List Batch} {e : Event}
    (he : (ofBatches ownUserId batches).events.get? id = some e) (hredacted : e.isRedacted = true)
    (hstays : Stays id (ofBatches ownUserId batches) later) :
    let s := ofBatches ownUserId (batches ++ later)
    ∃ x, s.events.get? id = some x ∧
      (x.isRedacted = true ↔
        Event.lastVerdict? id (later.flatMap Batch.recorded) ≠ some false) ∧
      (s.reader.messages x.roomId [id] = .ok [] ↔
        (Event.lastVerdict? id (later.flatMap Batch.recorded) = some false →
          (s.rooms.get? x.roomId).isSome = true → x.eventId = id → x.isShown = false)) := by
  intro s
  have hs : s = later.foldl apply (ofBatches ownUserId batches) := List.foldl_append
  obtain ⟨x, hx, hmark⟩ :=
    Event.exists_foldl_fate id (later.flatMap Batch.recorded) e
  have hstored : s.events.get? id = some x := by
    rw [hs, get?_foldl_apply_of_stays hstays, he, hx]
  have hstill : x.isRedacted = true ↔
      Event.lastVerdict? id (later.flatMap Batch.recorded) ≠ some false := by
    rw [hmark, hredacted]
    cases Event.lastVerdict? id (later.flatMap Batch.recorded) with
    | none => simp
    | some v => cases v <;> simp
  refine ⟨x, hstored, hstill, ?_⟩
  rw [messages_singleton_eq_nil_iff (keyed_ofBatches ownUserId (batches ++ later)) hstored]
  constructor
  · exact fun h _ => h
  · intro h hknown hid
    cases hx : x.isRedacted with
    | true => simp [Event.isShown, hx]
    | false =>
      have hlast : Event.lastVerdict? id (later.flatMap Batch.recorded) = some false := by
        by_contra hne
        rw [hstill.mpr hne] at hx
        cases hx
      exact h hlast hknown hid

-- A message is taken back, sent again, and taken back once more.
theorem takenBackAgain_redacted :
    Stays "$1" (ofBatches "" [batchOf [written], batchOf [takenBack]])
        [batchOf [written], batchOf [takenBack]] ∧
      (ofBatches "" [batchOf [written], batchOf [takenBack], batchOf [written],
        batchOf [takenBack]]).reader.messages "!a" ["$1"] = .ok [] := by
  have hstays : Stays "$1" (ofBatches "" [batchOf [written], batchOf [takenBack]])
      [batchOf [written], batchOf [takenBack]] :=
    ⟨fun _ _ => List.not_mem_nil, fun _ _ => List.not_mem_nil, trivial⟩
  have hstored : (ofBatches "" [batchOf [written], batchOf [takenBack]]).events.get? "$1" =
      some { written.inRoom "!a" with redactedBy := some "$2" } := rfl
  obtain ⟨x, hx, -, hmessages⟩ := redacted_still_iff hstored (by decide) hstays
  obtain rfl := Option.some.inj hx
  refine ⟨hstays, hmessages.mpr fun hlast => ?_⟩
  exact absurd hlast (by decide)

-- A redaction without an identifier of its own.
def nameless : Event := { type := EventType.redaction, relatesTo := some "$1" }

-- A message that was taken back is there again when it is sent again, and also when a redaction
-- without an identifier comes after the first one.
theorem redaction_can_be_lost :
    (¬∀ (ownUserId id : String) (batches later : List Batch) (e x : Event),
        (ofBatches ownUserId batches).events.get? id = some e → e.isRedacted = true →
        Stays id (ofBatches ownUserId batches) later →
        (ofBatches ownUserId (batches ++ later)).events.get? id = some x → x.isRedacted = true) ∧
      ¬∀ (ownUserId id : String) (batches later : List Batch) (e x : Event),
        (ofBatches ownUserId batches).events.get? id = some e → e.isRedacted = true →
        Stays id (ofBatches ownUserId batches) later →
        (∀ a ∈ later.flatMap Batch.recorded, a.id? ≠ some id) →
        (ofBatches ownUserId (batches ++ later)).events.get? id = some x → x.isRedacted = true := by
  have hstays : ∀ e, Stays "$1" (ofBatches "" [batchOf [written], batchOf [takenBack]])
      [batchOf [e]] :=
    fun e => ⟨fun _ _ => List.not_mem_nil, trivial⟩
  constructor
  · intro h
    have hredacted := h "" "$1" [batchOf [written], batchOf [takenBack]] [batchOf [written]]
      { written.inRoom "!a" with redactedBy := some "$2" } (written.inRoom "!a") rfl (by decide)
      (hstays written) rfl
    exact absurd hredacted (by decide)
  · intro h
    have hredacted := h "" "$1" [batchOf [written], batchOf [takenBack]] [batchOf [nameless]]
      { written.inRoom "!a" with redactedBy := some "$2" }
      { written.inRoom "!a" with redactedBy := some "" } rfl (by decide) (hstays nameless)
      (by decide) rfl
    exact absurd hredacted (by decide)

end Store

end ChatRelay

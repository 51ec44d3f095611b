import ChatRelay.Proofs.Store.Lookup
import ChatRelay.Proofs.Store.Redaction
import ChatRelay.Proofs.Store.Rooms

namespace ChatRelay

namespace Event

-- The names of the members of a room after an event.
def names (roomId : String) (e : Event) (known : Option (Table String)) : Option (Table String) :=
  if e.effectiveType = EventType.member ∧ e.roomId = roomId then
    match e.member? with
    | some userId =>
      let names := known.getD ∅
      some (if e.endsMembership then names.erase userId
        else names.insert userId (e.memberName userId))
    | none => known
  else known

theorem names_of_ne {e : Event} {roomId : String} (h : e.roomId ≠ roomId)
    (known : Option (Table String)) : e.names roomId known = known := by
  unfold names
  rw [if_neg fun hmember => h hmember.2]

theorem foldl_names_of_silent {events : List Event} {roomId : String}
    (h : ∀ e ∈ events, ∀ known, e.names roomId known = known) (known : Option (Table String)) :
    events.foldl (fun known e => e.names roomId known) known = known := by
  induction events with
  | nil => rfl
  | cons e events ih =>
    rw [List.foldl_cons, h e List.mem_cons_self]
    exact ih fun x hx => h x (List.mem_cons_of_mem e hx)

theorem lastMark?_eq_none {id : String} {events : List Event}
    (h : ∀ e ∈ events, e.redacts id ≠ true) : lastMark? id events = none := by
  rw [lastMark?, List.filter_eq_nil_iff.mpr h]
  rfl

end Event

namespace Batch

-- All that the batch is about is one room.
structure IsOf (b : Batch) (roomId : String) : Prop where
  left : ∀ left ∈ b.leftRooms, Text.trim left = roomId
  listed : ∀ entry ∈ b.rooms.entries, Text.trim entry.1 = roomId
  events : ∀ entry ∈ b.rooms.entries, ∀ e ∈ entry.2.events, e.roomId = "" ∨ e.roomId = roomId

theorem entry_of_mem_namedRooms {b : Batch} {id : String} {room : RoomSync}
    (h : (id, room) ∈ b.namedRooms) : ∃ key, (key, room) ∈ b.rooms.entries ∧ Text.trim key = id := by
  obtain ⟨entry, hentry, hnamed⟩ := List.mem_filterMap.mp h
  obtain ⟨name, hname, heq⟩ := Option.map_eq_some_iff.mp hnamed
  obtain ⟨rfl, rfl⟩ := Prod.mk.inj heq
  exact ⟨entry.1, hentry, (Text.nonBlank?_eq_some_iff.mp hname).1.symm⟩

theorem IsOf.of_mem_namedRooms {b : Batch} {roomId id : String} {room : RoomSync}
    (hb : b.IsOf roomId) (h : (id, room) ∈ b.namedRooms) :
    id = roomId ∧ ∀ e ∈ room.events, e.roomId = "" ∨ e.roomId = roomId := by
  obtain ⟨key, hentry, hkey⟩ := entry_of_mem_namedRooms h
  rw [← hkey]
  exact ⟨hb.listed (key, room) hentry, hb.events (key, room) hentry⟩

theorem IsOf.roomId_of_mem {b : Batch} {roomId : String} (hb : b.IsOf roomId) {e : Event}
    (he : e ∈ b.recorded) : e.roomId = roomId := by
  obtain ⟨⟨id, room⟩, hroom, he⟩ := List.mem_flatMap.mp he
  obtain ⟨sent, hsent, rfl⟩ := List.mem_map.mp he
  obtain ⟨rfl, hevents⟩ := hb.of_mem_namedRooms hroom
  exact Event.roomId_inRoom (hevents sent hsent)

theorem IsOf.entriesOf_eq_nil {b : Batch} {here there : String} (hb : b.IsOf here)
    (hne : there ≠ here) : b.entriesOf there = [] := by
  refine List.filterMap_eq_nil_iff.mpr fun room hroom => ?_
  exact if_neg fun h => hne (h.symm.trans (hb.of_mem_namedRooms hroom).1)

end Batch

namespace Store

-- The stored events of a room.
def eventsIn (s : Store) (roomId : String) : Table Event :=
  s.events.filter fun _ e => e.roomId = roomId

theorem eventOf?_reader (s : Store) (roomId id : String) :
    s.reader.eventOf? roomId id = (s.eventsIn roomId).get? id := by
  rw [eventsIn, Table.get?_filter]
  simp only [Reader.eventOf?, reader]
  cases s.events.get? id with
  | none => rfl
  | some e => by_cases h : e.roomId = roomId <;> simp [h, Option.filter_some]

theorem values_eventsIn (s : Store) (roomId : String) :
    (s.eventsIn roomId).values = s.events.values.filter (·.roomId = roomId) := by
  simp only [eventsIn, Table.filter, Table.values, List.filter_map, Function.comp_def]

-- Two stores, each with an order of its events, answer alike about a room: the same reactions to any
-- events and the same messages for any identifiers.
def AnswersAlike (roomId : String) (s : Store) (before : List Event) (t : Store)
    (after : List Event) : Prop :=
  ∀ ids, reactionsAmong after roomId ids = reactionsAmong before roomId ids ∧
    (t.readerAmong after).messages roomId ids = (s.readerAmong before).messages roomId ids

theorem AnswersAlike.symm {roomId : String} {s t : Store} {before after : List Event}
    (h : AnswersAlike roomId s before t after) : AnswersAlike roomId t after s before :=
  fun ids => ⟨(h ids).1.symm, (h ids).2.symm⟩

-- What is known of a room is the same in both stores.
structure SameIn (roomId : String) (s t : Store) : Prop where
  own : t.ownUserId = s.ownUserId
  room : t.rooms.get? roomId = s.rooms.get? roomId
  members : t.memberNames roomId = s.memberNames roomId
  events : t.eventsIn roomId = s.eventsIn roomId

namespace SameIn

variable {roomId : String} {s t : Store} {before after : List Event}

theorem symm (h : SameIn roomId s t) : SameIn roomId t s :=
  ⟨h.own.symm, h.room.symm, h.members.symm, h.events.symm⟩

theorem filter_values (h : SameIn roomId s t) :
    t.events.values.filter (·.roomId = roomId) = s.events.values.filter (·.roomId = roomId) := by
  rw [← values_eventsIn, h.events, values_eventsIn]

theorem alike_of_reactionsAmong (h : SameIn roomId s t)
    (hreactions : ∀ ids, reactionsAmong after roomId ids = reactionsAmong before roomId ids) :
    AnswersAlike roomId s before t after := by
  refine fun ids => ⟨hreactions ids, Reader.messages_eq_of_map (f := id)
    (congrArg Except.ok h.room) h.own (congrArg Except.ok h.members) ?_ (fun _ => rfl)
    (fun _ _ => rfl) ?_⟩
  · funext asked
    exact congrArg Except.ok (hreactions asked)
  · have heventOf : (t.readerAmong after).eventOf? roomId = (s.readerAmong before).eventOf? roomId := by
      funext id
      exact (t.eventOf?_reader roomId id).trans (h.events ▸ (s.eventOf?_reader roomId id).symm)
    rw [Reader.eventsOf, Reader.eventsOf, heventOf, List.map_id]

-- To each order of the events of one store there is one of the other with which it answers alike: the
-- events of the room come in the same order, and then those of all other rooms.
theorem exists_alike (h : SameIn roomId s t) (hperm : before.Perm s.events.values) :
    ∃ after, after.Perm t.events.values ∧ AnswersAlike roomId s before t after := by
  let here := before.filter (·.roomId = roomId)
  let elsewhere := t.events.values.filter fun e => !decide (e.roomId = roomId)
  have hhere : here.Perm (t.events.values.filter (·.roomId = roomId)) := by
    rw [h.filter_values]
    exact hperm.filter _
  have hafter : (here ++ elsewhere).filter (·.roomId = roomId) = here := by
    simp [here, elsewhere, List.filter_filter]
  refine ⟨here ++ elsewhere, ?_, h.alike_of_reactionsAmong fun ids => ?_⟩
  · exact (hhere.append_right _).trans (List.filter_append_perm _ _)
  · exact reactionsAmong_eq_of_filter hafter ids

-- Where no two reactions to one event have one time, it answers alike with all of them.
theorem alike (h : SameIn roomId s t) (hdistinct : s.HasDistinctTimesIn roomId)
    (hbefore : before.Perm s.events.values) (hafter : after.Perm t.events.values) :
    AnswersAlike roomId s before t after := by
  refine h.alike_of_reactionsAmong fun ids => reactionsAmong_eq_of_perm fun id _ => ⟨?_, ?_⟩
  · have hvalues : t.events.values.filter (isReactionTo roomId id) =
        s.events.values.filter (isReactionTo roomId id) := by
      rw [filter_isReactionTo, h.filter_values, ← filter_isReactionTo]
    exact (hafter.filter _).trans (hvalues ▸ (hbefore.filter _).symm)
  · exact (hdistinct id).perm (hbefore.filter _).symm Ne.symm

end SameIn

theorem get?_members_record (s : Store) (e : Event) (roomId : String) :
    (s.record e).members.get? roomId = e.names roomId (s.members.get? roomId) := by
  have hredact : (s.redact e).members = s.members := by
    unfold redact
    split
    · split <;> rfl
    · rfl
  have hkeep (s : Store) : (s.keep e).members = s.members := by
    unfold keep
    split <;> rfl
  unfold record
  rw [hkeep, ← hredact]
  generalize s.redact e = s
  unfold noteMember Event.names
  by_cases hmember : e.effectiveType = EventType.member
  · rw [if_pos hmember]
    cases e.member? with
    | none => simp
    | some userId =>
      by_cases hroom : e.roomId = roomId
      · simp [hmember, hroom, Table.get?_insert]
      · simp [hmember, hroom, Ne.symm hroom, Table.get?_insert]
  · simp [hmember]

theorem get?_members_apply (s : Store) (b : Batch) (roomId : String) :
    (s.apply b).members.get? roomId =
      b.recorded.foldl (fun known e => e.names roomId known)
        ((s.afterLeaving b).members.get? roomId) :=
  view_apply (fun s => s.members.get? roomId) (fun known e => e.names roomId known)
    (fun _ _ _ => rfl) (fun s e => s.get?_members_record e roomId) s b

theorem get?_members_afterLeaving (s : Store) (b : Batch) (roomId : String) :
    (s.afterLeaving b).members.get? roomId =
      if roomId ∈ b.leftRooms.map Text.trim then none else s.members.get? roomId :=
  get?_view_afterLeaving members (fun _ _ => rfl) s b roomId

section

variable {s : Store} {b : Batch} {there : String}
  (hleft : there ∉ b.leftRooms.map Text.trim) (hevents : ∀ e ∈ b.recorded, e.roomId ≠ there)

include hleft hevents

theorem members_apply_of_elsewhere :
    (s.apply b).members.get? there = s.members.get? there := by
  rw [get?_members_apply, Event.foldl_names_of_silent fun e he => Event.names_of_ne (hevents e he),
    get?_members_afterLeaving, if_neg hleft]

-- All that happens to the events of other rooms is that redactions mark them.
theorem eventsIn_apply_of_elsewhere
    (hids : ∀ e ∈ b.recorded, ∀ id, e.id? = some id → (s.eventsIn there).get? id = none)
    (id : String) :
    ((s.apply b).eventsIn there).get? id =
      ((s.eventsIn there).get? id).map (Event.marked (Event.lastMark? id b.recorded)) := by
  have hstored : ((s.apply b).eventsIn there).get? id = (Event.left? id b.recorded
      ((s.events.get? id).filter (·.roomId ∉ b.leftRooms.map Text.trim))).filter
        (·.roomId = there) := by
    rw [eventsIn, Table.get?_filter, get?_apply, Event.foldl_fate, get?_afterLeaving]
  rw [hstored, Event.left?]
  cases hown : Event.lastOwn? id b.recorded with
  | some found =>
    obtain ⟨he, hid⟩ := Event.mem_of_lastOwn? hown
    rw [hids _ he id hid]
    simp [Option.filter_some, Event.roomId_marked, hevents _ he]
  | none =>
    rw [eventsIn, Table.get?_filter]
    cases s.events.get? id with
    | none => rfl
    | some e =>
      by_cases hroom : e.roomId = there
      · subst hroom
        simp only [Option.filter_some, hleft, not_false_eq_true, decide_true, if_true,
          Option.map_some, Event.roomId_marked]
      · cases hstays : (some e).filter (·.roomId ∉ b.leftRooms.map Text.trim) with
        | none => simp [Option.filter_some, hroom]
        | some x =>
          obtain rfl := Option.some.inj (Option.filter_eq_some_iff.mp hstays).1
          simp [Option.filter_some, hroom, Event.roomId_marked]

end

-- A batch of one room, in which no event has the identifier of an event that is stored for another
-- room. What is known of another room and the names of its members stay as they are, and so do its
-- events but for the marks of redactions. If no redaction of the batch relates to one of its
-- events, the store can answer about reactions and messages in the room what it could answer before,
-- and in one way only where no two reactions to one event have one time.
theorem other_rooms_unchanged {s : Store} {b : Batch} {here there : String} (hne : there ≠ here)
    (hb : b.IsOf here)
    (hids : ∀ e ∈ b.recorded, ∀ id, e.id? = some id →
      ∀ x, s.events.get? id = some x → x.roomId = here) :
    let t := s.apply b
    t.rooms.get? there = s.rooms.get? there ∧ t.memberNames there = s.memberNames there ∧
      (∀ id, (t.eventsIn there).get? id =
        ((s.eventsIn there).get? id).map (Event.marked (Event.lastMark? id b.recorded))) ∧
      ((∀ e ∈ b.recorded, ∀ id, e.redacts id = true → (s.eventsIn there).get? id = none) →
        (∀ before, before.Perm s.events.values →
          ∃ after, after.Perm t.events.values ∧ AnswersAlike there s before t after) ∧
        (∀ after, after.Perm t.events.values →
          ∃ before, before.Perm s.events.values ∧ AnswersAlike there s before t after) ∧
        (s.HasDistinctTimesIn there → ∀ before after, before.Perm s.events.values →
          after.Perm t.events.values → AnswersAlike there s before t after)) := by
  intro t
  have hleft : there ∉ b.leftRooms.map Text.trim := by
    intro hm
    obtain ⟨left, hm, heq⟩ := List.mem_map.mp hm
    exact hne (heq.symm.trans (hb.left left hm))
  have helsewhere : ∀ e ∈ b.recorded, e.roomId ≠ there := by
    intro e he heq
    exact hne (heq.symm.trans (hb.roomId_of_mem he))
  have hforeign : ∀ e ∈ b.recorded, ∀ id, e.id? = some id →
      (s.eventsIn there).get? id = none := by
    intro e he id hid
    rw [eventsIn, Table.get?_filter, Option.filter_eq_none_iff]
    intro x hx
    simp [hids e he id hid x hx, Ne.symm hne]
  have hroom : t.rooms.get? there = s.rooms.get? there := by
    rw [get?_rooms_apply, hb.entriesOf_eq_nil hne, get?_rooms_afterLeaving, if_neg hleft]
    rfl
  have hmembers : t.memberNames there = s.memberNames there := by
    unfold memberNames
    rw [members_apply_of_elsewhere hleft helsewhere]
  have hmarked := eventsIn_apply_of_elsewhere hleft helsewhere hforeign
  refine ⟨hroom, hmembers, hmarked, fun hunredacted => ?_⟩
  have hevents : t.eventsIn there = s.eventsIn there := by
    refine Table.ext_get? fun id => ?_
    rw [hmarked]
    cases hstored : (s.eventsIn there).get? id with
    | none => rfl
    | some e =>
      rw [Event.lastMark?_eq_none fun x hx hredacts => by
        cases hstored.symm.trans (hunredacted x hx id hredacts)]
      rfl
  have hsame : SameIn there s t :=
    ⟨ownUserId_of_mem (apply_mem b) s, hroom, hmembers, hevents⟩
  refine ⟨fun before hbefore => hsame.exists_alike hbefore, fun after hafter => ?_,
    fun hdistinct before after hbefore hafter => hsame.alike hdistinct hbefore hafter⟩
  obtain ⟨before, hbefore, halike⟩ := hsame.symm.exists_alike hafter
  exact ⟨before, hbefore, halike.symm⟩

theorem isOf_batchOf {events : List Event} (h : ∀ e ∈ events, e.roomId = "") :
    (batchOf events).IsOf "!a" where
  left := fun left hleft => absurd hleft List.not_mem_nil
  listed := by
    intro entry hentry
    obtain rfl := List.mem_singleton.mp hentry
    show Text.trim "!a" = "!a"
    decide
  events := by
    intro entry hentry e he
    obtain rfl := List.mem_singleton.mp hentry
    exact .inl (h e he)

-- Where no event of a batch has an identifier that is stored, none has one of another room.
theorem roomId_of_new {s : Store} {b : Batch}
    (hnew : ∀ e ∈ b.recorded, (e.id?.bind s.events.get?).isNone = true) (here : String) :
    ∀ e ∈ b.recorded, ∀ id, e.id? = some id →
      ∀ x, s.events.get? id = some x → x.roomId = here := by
  intro e he id hid x hx
  have hnone := hnew e he
  rw [hid, Option.bind_some, hx] at hnone
  cases hnone

theorem eventsIn_eq_none_of_redacts {s : Store} {b : Batch} {there : String}
    (h : ∀ e ∈ b.recorded, (e.target?.bind (s.eventsIn there).get?).isNone = true) :
    ∀ e ∈ b.recorded, ∀ id, e.redacts id = true → (s.eventsIn there).get? id = none := by
  intro e he id hredacts
  have hnone := h e he
  rw [(Event.redacts_eq_true.mp hredacts).2, Option.bind_some] at hnone
  exact Option.isNone_iff_eq_none.mp hnone

-- A message of another room.
def neighbour : Batch :=
  { rooms := .ofList [("!b", { events := [{ written with eventId := "$9" }] })] }

-- The same message, and reactions to it.
def reactedNeighbour (reactions : List Event) : Batch :=
  let toIt := reactions.map fun e => { e with relatesTo := some "$9" }
  { rooms := .ofList [("!b", { events := { written with eventId := "$9" } :: toIt })] }

-- A message comes and is taken back in one room, and all stays as it is in the other one.
theorem neighbour_unchanged :
    let s := ofBatches "" [reactedNeighbour [plusOne "$3" "@x:s" 1, plusOne "$4" "@y:s" 2]]
    let b := batchOf [written, takenBack]
    b.IsOf "!a" ∧
      (∀ e ∈ b.recorded, ∀ id, e.id? = some id →
        ∀ x, s.events.get? id = some x → x.roomId = "!a") ∧
      (∀ e ∈ b.recorded, ∀ id, e.redacts id = true → (s.eventsIn "!b").get? id = none) ∧
      s.HasDistinctTimesIn "!b" ∧
      ∀ before after, before.Perm s.events.values → after.Perm (s.apply b).events.values →
        AnswersAlike "!b" s before (s.apply b) after := by
  intro s b
  have hb : b.IsOf "!a" := isOf_batchOf (by decide)
  have hids := roomId_of_new (s := s) (b := b) (by decide) "!a"
  have hunredacted : ∀ e ∈ b.recorded, ∀ id, e.redacts id = true →
      (s.eventsIn "!b").get? id = none := eventsIn_eq_none_of_redacts (by decide)
  have hall : s.events.values.Pairwise fun a b => a.timestamp ≠ b.timestamp := by decide
  have hdistinct : s.HasDistinctTimesIn "!b" := fun _ => hall.filter _
  refine ⟨hb, hids, hunredacted, hdistinct, ?_⟩
  exact ((other_rooms_unchanged (by decide) hb hids).2.2.2 hunredacted).2.2 hdistinct

-- A redaction of one room takes back the message of another. And of two reactions with one time, either
-- may come first after a batch of another room, whichever did before.
theorem neighbour_can_change :
    (¬∀ (ownUserId : String) (batches : List Batch) (b : Batch) (here there : String),
      there ≠ here → b.IsOf here →
      (∀ e ∈ b.recorded, ∀ id, e.id? = some id →
        ∀ x, (ofBatches ownUserId batches).events.get? id = some x → x.roomId = here) →
      ∀ ids, ((ofBatches ownUserId batches).apply b).reader.messages there ids =
        (ofBatches ownUserId batches).reader.messages there ids) ∧
    ¬∀ (ownUserId : String) (batches : List Batch) (b : Batch) (here there : String),
      there ≠ here → b.IsOf here →
      (∀ e ∈ b.recorded, ∀ id, e.id? = some id →
        ∀ x, (ofBatches ownUserId batches).events.get? id = some x → x.roomId = here) →
      (∀ e ∈ b.recorded, ∀ id, e.redacts id = true →
        ((ofBatches ownUserId batches).eventsIn there).get? id = none) →
      ∀ before after, before.Perm (ofBatches ownUserId batches).events.values →
        after.Perm ((ofBatches ownUserId batches).apply b).events.values →
        ∀ ids, reactionsAmong after there ids = reactionsAmong before there ids := by
  constructor
  · intro h
    let s := ofBatches "" [neighbour]
    let b := batchOf [{ takenBack with relatesTo := some "$9" }]
    have hids := roomId_of_new (s := s) (b := b) (by decide) "!a"
    have hsame := h "" [neighbour] b "!a" "!b" (by decide) (isOf_batchOf (by decide)) hids ["$9"]
    have hbefore : s.events.get? "$9" = some { written with roomId := "!b", eventId := "$9" } := rfl
    have hafter : (s.apply b).events.get? "$9" =
        some { written with roomId := "!b", eventId := "$9", redactedBy := some "$2" } := rfl
    have hkeyed := keyed_ofBatches "" [neighbour]
    have hfound := mt (messages_singleton_eq_nil_iff hkeyed hbefore).mp (by decide)
    exact hfound (hsame ▸ (messages_singleton_eq_nil_iff (hkeyed.apply b) hafter).mpr (by decide))
  · intro h
    let tied := [plusOne "$3" "@x:s" 1, plusOne "$4" "@y:s" 1]
    let s := ofBatches "" [reactedNeighbour tied]
    let b := batchOf [written]
    have hids := roomId_of_new (s := s) (b := b) (by decide) "!a"
    have hunredacted : ∀ e ∈ b.recorded, ∀ id, e.redacts id = true →
        (s.eventsIn "!b").get? id = none := eventsIn_eq_none_of_redacts (by decide)
    let before := s.events.values
    let after := (s.apply b).events.values.reverse
    have hsame := h "" [reactedNeighbour tied] b "!a" "!b" (by decide) (isOf_batchOf (by decide)) hids
      hunredacted before after (.refl _) (List.reverse_perm _) ["$9"]
    have hcollect : Reaction.collect (reactionEvents after "!b" "$9") =
        Reaction.collect (reactionEvents before "!b" "$9") := by
      rw [← getD_reactionsAmong after "!b" (List.mem_singleton_self "$9"), hsame,
        getD_reactionsAmong before "!b" (List.mem_singleton_self "$9")]
    rw [reactionEvents_of_sorted (by decide), reactionEvents_of_sorted (by decide)] at hcollect
    exact absurd hcollect (by decide)

end Store

end ChatRelay

import ChatRelay.Proofs.Store.Separation

namespace ChatRelay

namespace Batch

-- The batch says something about a room: it lists the room, or has an event of it.
def Mentions (b : Batch) (roomId : String) : Prop :=
  ∃ entry ∈ b.rooms.entries, Text.trim entry.1 = roomId ∨ ∃ e ∈ entry.2.events, e.roomId = roomId

instance (b : Batch) (roomId : String) : Decidable (b.Mentions roomId) :=
  inferInstanceAs (Decidable (∃ entry ∈ b.rooms.entries,
    Text.trim entry.1 = roomId ∨ ∃ e ∈ entry.2.events, e.roomId = roomId))

theorem entriesOf_eq_nil_of_not_mentions {b : Batch} {roomId : String} (hb : ¬b.Mentions roomId) :
    b.entriesOf roomId = [] := by
  refine List.filterMap_eq_nil_iff.mpr fun room hroom => if_neg fun hid => hb ?_
  obtain ⟨key, hentry, hkey⟩ := entry_of_mem_namedRooms hroom
  exact ⟨_, hentry, .inl (hkey.trans hid)⟩

-- An event that names no room is of the room that it came with, which is another one.
theorem roomId_ne_of_not_mentions {b : Batch} {roomId : String} (hb : ¬b.Mentions roomId)
    {e : Event} (he : e ∈ b.recorded) : e.roomId ≠ roomId := by
  obtain ⟨⟨id, room⟩, hroom, he⟩ := List.mem_flatMap.mp he
  obtain ⟨sent, hsent, rfl⟩ := List.mem_map.mp he
  obtain ⟨key, hentry, hkey⟩ := entry_of_mem_namedRooms hroom
  intro heq
  unfold Event.inRoom at heq
  split at heq
  · exact hb ⟨_, hentry, .inl (hkey.trans heq)⟩
  · exact hb ⟨_, hentry, .inr ⟨sent, hsent, heq⟩⟩

end Batch

theorem Event.roomId_ne_of_foldl_fate {roomId id : String} {events : List Event}
    (hevents : ∀ e ∈ events, e.roomId ≠ roomId) {stored : Option Event}
    (hstored : ∀ t, stored = some t → t.roomId ≠ roomId) {x : Event}
    (hx : events.foldl (fun stored e => e.fate id stored) stored = some x) :
    x.roomId ≠ roomId := by
  induction events generalizing stored with
  | nil => exact hstored x hx
  | cons e events ih =>
    refine ih (fun y hy => hevents y (List.mem_cons_of_mem e hy)) (fun t ht => ?_) hx
    change e.fate id stored = some t at ht
    unfold fate at ht
    split at ht
    · obtain rfl := Option.some.inj ht
      exact hevents e List.mem_cons_self
    · split at ht
      · obtain ⟨t, hstill, rfl⟩ := Option.map_eq_some_iff.mp ht
        exact hstored t hstill
      · exact hstored t ht

namespace Store

-- Nothing is kept of a room.
structure IsWithout (s : Store) (roomId : String) : Prop where
  room : s.rooms.get? roomId = none
  members : s.members.get? roomId = none
  events : ∀ id e, s.events.get? id = some e → e.roomId ≠ roomId

section

variable {s : Store} {b : Batch} {roomId : String}

theorem isWithout_afterLeaving (h : roomId ∈ b.leftRooms.map Text.trim) :
    (s.afterLeaving b).IsWithout roomId where
  room := by rw [get?_rooms_afterLeaving, if_pos h]
  members := by rw [get?_members_afterLeaving, if_pos h]
  events := by
    rintro id e he rfl
    rw [get?_afterLeaving, Option.filter_eq_some_iff] at he
    exact of_decide_eq_true he.2 h

namespace IsWithout

theorem afterLeaving (h : s.IsWithout roomId) (b : Batch) :
    (s.afterLeaving b).IsWithout roomId where
  room := by rw [get?_rooms_afterLeaving, h.room, ite_self]
  members := by rw [get?_members_afterLeaving, h.members, ite_self]
  events := by
    intro id e he
    rw [get?_afterLeaving, Option.filter_eq_some_iff] at he
    exact h.events id e he.1

-- What a batch does after the rooms were left brings nothing back of which it says nothing.
theorem of_afterLeaving (h : (s.afterLeaving b).IsWithout roomId) (hb : ¬b.Mentions roomId) :
    (s.apply b).IsWithout roomId where
  room := by
    rw [get?_rooms_apply, Batch.entriesOf_eq_nil_of_not_mentions hb]
    exact h.room
  members := by
    rw [get?_members_apply, Event.foldl_names_of_silent fun e he =>
      Event.names_of_ne (Batch.roomId_ne_of_not_mentions hb he)]
    exact h.members
  events := by
    intro id e he
    rw [get?_apply] at he
    exact Event.roomId_ne_of_foldl_fate (fun _ => Batch.roomId_ne_of_not_mentions hb)
      (h.events id) he

theorem apply (h : s.IsWithout roomId) (hb : ¬b.Mentions roomId) : (s.apply b).IsWithout roomId :=
  (h.afterLeaving b).of_afterLeaving hb

theorem foldl_apply {later : List Batch} (h : s.IsWithout roomId)
    (hlater : ∀ b ∈ later, ¬b.Mentions roomId) : (later.foldl Store.apply s).IsWithout roomId := by
  induction later generalizing s with
  | nil => exact h
  | cons b later ih =>
    exact ih (h.apply (hlater b List.mem_cons_self)) fun x hx => hlater x (List.mem_cons_of_mem b hx)

theorem memberNames (h : s.IsWithout roomId) : s.memberNames roomId = ∅ := by
  unfold Store.memberNames
  rw [h.members]
  rfl

theorem messages (h : s.IsWithout roomId) (ids : List String) :
    s.reader.messages roomId ids = .ok [] :=
  messages_of_unknown h.room ids

theorem reactions (h : s.IsWithout roomId) (ids : List String) : s.reactions roomId ids = ∅ := by
  have hevents : ∀ target, reactionEvents s.events.values roomId target = [] := by
    intro target
    have hnone : s.events.values.filter (isReactionTo roomId target) = [] := by
      refine List.filter_eq_nil_iff.mpr fun e he hreaction => ?_
      obtain ⟨⟨id, e⟩, hentry, rfl⟩ := List.mem_map.mp he
      have hroom : e.roomId = roomId := by
        simp only [isReactionTo, Bool.and_eq_true, beq_iff_eq] at hreaction
        exact hreaction.1.1
      exact h.events id e (Table.get?_eq_some_iff.mpr hentry) hroom
    rw [reactionEvents, hnone, List.mergeSort_nil]
  have hcollect : Reaction.collect [] = [] := rfl
  simp only [Store.reactions, reactionsAmong, hevents, hcollect]
  rw [List.filterMap_eq_nil_iff.mpr fun _ _ => rfl]
  rfl

end IsWithout

theorem apply_of_no_rooms (h : b.rooms = ∅) : s.apply b = s.afterLeaving b := by
  have hnamed : b.namedRooms = [] := by
    rw [Batch.namedRooms, h]
    rfl
  rw [apply, hnamed]
  rfl

theorem eventsIn_afterLeaving (h : roomId ∉ b.leftRooms.map Text.trim) :
    (s.afterLeaving b).eventsIn roomId = s.eventsIn roomId := by
  refine Table.ext_get? fun id => ?_
  rw [eventsIn, eventsIn, Table.get?_filter, Table.get?_filter, get?_afterLeaving,
    Option.filter_filter]
  congr 1
  funext e
  by_cases he : e.roomId = roomId
  · simp [he, h]
  · simp [he]

end

-- Whatever is stored. Once a room was left in a batch that does not mention it, and as long as no
-- later batch mentions it, the room is not known, has no members and no events, and nothing is found
-- in it. A batch that does nothing but leave rooms leaves all that is kept of the others as it is.
theorem left_for_good (s : Store) (b : Batch) :
    (∀ roomId ∈ b.leftRooms.filterMap Text.nonBlank?, ¬b.Mentions roomId →
      ∀ later : List Batch, (∀ l ∈ later, ¬l.Mentions roomId) →
        let t := later.foldl apply (s.apply b)
        t.rooms.get? roomId = none ∧ t.memberNames roomId = ∅ ∧
          (∀ id e, t.events.get? id = some e → e.roomId ≠ roomId) ∧
          ∀ ids, t.reader.messages roomId ids = .ok [] ∧ t.reactions roomId ids = ∅) ∧
      (b.rooms = ∅ → ∀ roomId ∉ b.leftRooms.map Text.trim,
        let t := s.apply b
        t.rooms.get? roomId = s.rooms.get? roomId ∧ t.memberNames roomId = s.memberNames roomId ∧
          t.eventsIn roomId = s.eventsIn roomId) := by
  refine ⟨fun roomId hleft hb later hlater => ?_, fun hrooms roomId hstays => ?_⟩
  · obtain ⟨left, hm, hid⟩ := List.mem_filterMap.mp hleft
    have hgone : roomId ∈ b.leftRooms.map Text.trim :=
      List.mem_map.mpr ⟨left, hm, (Text.nonBlank?_eq_some_iff.mp hid).1.symm⟩
    have hwithout : (later.foldl apply (s.apply b)).IsWithout roomId :=
      ((isWithout_afterLeaving hgone).of_afterLeaving hb).foldl_apply hlater
    exact ⟨hwithout.room, hwithout.memberNames, hwithout.events,
      fun ids => ⟨hwithout.messages ids, hwithout.reactions ids⟩⟩
  · intro t
    have ht : t = s.afterLeaving b := apply_of_no_rooms hrooms
    have hmembers : t.memberNames roomId = s.memberNames roomId := by
      unfold memberNames
      rw [ht, get?_members_afterLeaving, if_neg hstays]
    exact ⟨by rw [ht, get?_rooms_afterLeaving, if_neg hstays], hmembers,
      ht ▸ eventsIn_afterLeaving hstays⟩

def departure : Batch := { leftRooms := [" !a "] }

-- A room is left, and what comes later is about another one, of which nothing is lost.
theorem neighbour_left_for_good :
    let s := ofBatches "" [batchOf [written], neighbour]
    "!a" ∈ departure.leftRooms.filterMap Text.nonBlank? ∧ ¬departure.Mentions "!a" ∧
      (∀ l ∈ [neighbour], ¬l.Mentions "!a") ∧ "!b" ∉ departure.leftRooms.map Text.trim ∧
      ((s.apply departure).apply neighbour).reader.messages "!a" ["$1"] = .ok [] ∧
      (s.apply departure).eventsIn "!b" = s.eventsIn "!b" := by
  intro s
  have hleft : "!a" ∈ departure.leftRooms.filterMap Text.nonBlank? := by decide
  have hb : ¬departure.Mentions "!a" := by decide
  have hlater : ∀ l ∈ [neighbour], ¬l.Mentions "!a" := by decide
  have hstays : "!b" ∉ departure.leftRooms.map Text.trim := by decide
  obtain ⟨hgone, hothers⟩ := left_for_good s departure
  obtain ⟨-, -, -, hfound⟩ := hgone "!a" hleft hb [neighbour] hlater
  exact ⟨hleft, hb, hlater, hstays, (hfound ["$1"]).1, (hothers rfl "!b" hstays).2.2⟩

end Store

end ChatRelay

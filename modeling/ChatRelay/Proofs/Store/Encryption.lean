import ChatRelay.Hub.Announcement
import ChatRelay.Proofs.Store.Deletion
import ChatRelay.Proofs.Store.Reactions

namespace ChatRelay

namespace Event

-- The event as it would be if it had never been sealed.
def plain (e : Event) : Event :=
  { e with
    type := e.effectiveType
    content := e.effectiveContent
    decrypted := none
    decryptedType := none }

@[simp] theorem effectiveType_plain (e : Event) : e.plain.effectiveType = e.effectiveType := rfl

@[simp] theorem id?_plain (e : Event) : e.plain.id? = e.id? := rfl

@[simp] theorem target?_plain (e : Event) : e.plain.target? = e.target? := rfl

@[simp] theorem member?_plain (e : Event) : e.plain.member? = e.member? := rfl

theorem render?_plain (e : Event) (context : ChatContext) :
    e.plain.render? context = e.render? context := rfl

theorem plain_inRoom (e : Event) (roomId : String) :
    (e.inRoom roomId).plain = e.plain.inRoom roomId := by
  unfold inRoom
  by_cases h : e.roomId = ""
  · rw [if_pos h, if_pos (show e.plain.roomId = "" from h)]
    rfl
  · rw [if_neg h, if_neg (show e.plain.roomId ≠ "" from h)]

end Event

theorem Reaction.collect_plain (events : List Event) :
    collect (events.map Event.plain) = collect events := by
  unfold collect
  rw [List.filterMap_map]
  rfl

namespace RoomSync

def plain (r : RoomSync) : RoomSync := { r with events := r.events.map Event.plain }

theorem plain_plain (r : RoomSync) : r.plain.plain = r.plain := by
  simp only [plain, List.map_map]
  rfl

end RoomSync

theorem RoomChanges.ofRoom_plain (r : RoomSync) : ofRoom r.plain = ofRoom r := by
  simp only [ofRoom, RoomSync.plain, List.foldl_map]
  rfl

namespace Batch

def plain (b : Batch) : Batch := { b with rooms := b.rooms.map fun _ r => r.plain }

theorem plain_plain (b : Batch) : b.plain.plain = b.plain := by
  have hrooms : (b.rooms.map fun _ r => r.plain).map (fun _ r => r.plain) =
      b.rooms.map fun _ r => r.plain := by
    refine Table.ext_get? fun roomId => ?_
    simp only [Table.get?_map, Option.map_map, Function.comp_def, RoomSync.plain_plain]
  simp only [plain, hrooms]

theorem namedRooms_plain (b : Batch) :
    b.plain.namedRooms = b.namedRooms.map fun (roomId, room) => (roomId, room.plain) := by
  simp only [namedRooms, plain, Table.map, List.filterMap_map, List.map_filterMap]
  congr 1
  funext entry
  cases h : Text.nonBlank? entry.1 <;> simp [h]

theorem changes_plain (b : Batch) : b.plain.changes = b.changes := by
  unfold changes
  rw [namedRooms_plain, List.flatMap_map]
  simp only [RoomChanges.ofRoom_plain]
  rfl

end Batch

namespace Reader

-- Two readers that answer all questions alike, the one for an event apart, and find the same
-- messages.
structure Alike (r q : Reader) : Prop where
  ownUserId : r.ownUserId = q.ownUserId
  room : r.room = q.room
  memberNames : r.memberNames = q.memberNames
  reactions : r.reactions = q.reactions
  messages : r.messages = q.messages

theorem Alike.symm {r q : Reader} (h : r.Alike q) : q.Alike r :=
  ⟨h.ownUserId.symm, h.room.symm, h.memberNames.symm, h.reactions.symm, h.messages.symm⟩

theorem Alike.trans {r q p : Reader} (h : r.Alike q) (h' : q.Alike p) : r.Alike p :=
  ⟨h.ownUserId.trans h'.ownUserId, h.room.trans h'.room, h.memberNames.trans h'.memberNames,
    h.reactions.trans h'.reactions, h.messages.trans h'.messages⟩

end Reader

namespace Store

-- The store as it would be if none of its events had ever been sealed.
def plain (s : Store) : Store := { s with events := s.events.map fun _ e => e.plain }

theorem leave_plain (s : Store) (roomId : String) :
    (s.leave roomId).plain = s.plain.leave roomId := by
  have hevents := s.events.map_filter (fun _ (e : Event) => decide (e.roomId ≠ roomId))
    fun _ e => e.plain
  unfold leave plain
  rw [← hevents]
  rfl

theorem enter_plain (s : Store) (roomId : String) (metadata : Option Json) :
    (s.enter roomId metadata).plain = s.plain.enter roomId metadata := rfl

theorem redact_plain (s : Store) (e : Event) : (s.redact e).plain = s.plain.redact e.plain := by
  have hmark (target : String) :
      (s.events.modify target fun t => { t with redactedBy := some e.eventId }).map
          (fun _ e => e.plain) =
        (s.events.map fun _ e => e.plain).modify target
          fun t => { t with redactedBy := some e.eventId } := by
    refine Table.ext_get? fun id => ?_
    simp only [Table.get?_map, Table.get?_modify]
    by_cases h : id = target
    · simp only [h, if_true, Option.map_map]
      rfl
    · simp only [h, if_false]
  by_cases hredaction : e.effectiveType = EventType.redaction
  · simp only [redact, Event.effectiveType_plain, Event.target?_plain, hredaction, if_true]
    cases e.target? with
    | none => rfl
    | some target =>
      simp only [plain, hmark]
      rfl
  · simp only [redact, Event.effectiveType_plain, hredaction, if_false]

theorem noteMember_plain (s : Store) (e : Event) :
    (s.noteMember e).plain = s.plain.noteMember e.plain := by
  by_cases hmember : e.effectiveType = EventType.member
  · simp only [noteMember, Event.effectiveType_plain, Event.member?_plain, hmember, if_true]
    cases e.member? <;> rfl
  · simp only [noteMember, Event.effectiveType_plain, hmember, if_false]

theorem keep_plain (s : Store) (e : Event) : (s.keep e).plain = s.plain.keep e.plain := by
  simp only [keep, Event.id?_plain]
  split
  · simp only [plain, Table.map_insert]
  · rfl

theorem record_plain (s : Store) (e : Event) : (s.record e).plain = s.plain.record e.plain := by
  unfold record
  rw [keep_plain, noteMember_plain, redact_plain]

theorem applyRoom_plain (s : Store) (roomId : String) (room : RoomSync) :
    (s.applyRoom roomId room).plain = s.plain.applyRoom roomId room.plain := by
  have hevents : (room.events.map Event.plain).map (·.inRoom roomId) =
      (room.events.map (·.inRoom roomId)).map Event.plain := by
    simp only [List.map_map, Function.comp_def, Event.plain_inRoom]
  simp only [applyRoom, RoomSync.plain, hevents, ← enter_plain, List.foldl_map]
  exact (List.foldl_hom plain fun s e => (s.record_plain _).symm).symm

theorem apply_plain (s : Store) (b : Batch) : (s.apply b).plain = s.plain.apply b.plain := by
  have hleft : s.plain.afterLeaving b.plain = (s.afterLeaving b).plain :=
    List.foldl_hom plain fun s roomId => (s.leave_plain roomId).symm
  have hrooms : (b.namedRooms.map fun (roomId, room) => (roomId, room.plain)).foldl
      (fun s (roomId, room) => s.applyRoom roomId room) (s.afterLeaving b).plain =
        (b.namedRooms.foldl (fun s (roomId, room) => s.applyRoom roomId room)
          (s.afterLeaving b)).plain := by
    rw [List.foldl_map]
    refine List.foldl_hom plain ?_
    exact fun s room => (s.applyRoom_plain room.1 room.2).symm
  have happly : s.plain.apply b.plain = b.plain.namedRooms.foldl
      (fun s (roomId, room) => s.applyRoom roomId room) (s.plain.afterLeaving b.plain) := rfl
  rw [happly, Batch.namedRooms_plain, hleft, hrooms]
  rfl

theorem reactionsAmong_plain (events : List Event) (roomId : String) (ids : List String) :
    reactionsAmong (events.map Event.plain) roomId ids = reactionsAmong events roomId ids := by
  have hsorted (id : String) : reactionEvents (events.map Event.plain) roomId id =
      (reactionEvents events roomId id).map Event.plain := by
    rw [reactionEvents, List.filter_map]
    exact (List.map_mergeSort (f := Event.plain) fun _ _ _ _ => rfl).symm
  simp only [reactionsAmong, hsorted, Reaction.collect_plain]

theorem eventOf?_plain (s : Store) (events : List Event) (chatId id : String) :
    (s.plain.readerAmong (events.map Event.plain)).eventOf? chatId id =
      ((s.readerAmong events).eventOf? chatId id).map Event.plain := by
  have hget : s.plain.events.get? id = (s.events.get? id).map Event.plain := Table.get?_map ..
  simp only [Reader.eventOf?, readerAmong, reader, hget]
  cases s.events.get? id with
  | none => rfl
  | some e => by_cases hroom : e.roomId = chatId <;> simp [hroom, Event.plain]

theorem readerAmong_plain (s : Store) (events : List Event) :
    (s.plain.readerAmong (events.map Event.plain)).Alike (s.readerAmong events) := by
  have hreactions : (s.plain.readerAmong (events.map Event.plain)).reactions =
      (s.readerAmong events).reactions := by
    funext roomId ids
    exact congrArg Except.ok (reactionsAmong_plain events roomId ids)
  refine ⟨rfl, rfl, rfl, hreactions, ?_⟩
  funext chatId ids
  have hevents : (s.plain.readerAmong (events.map Event.plain)).eventsOf chatId ids =
      ((s.readerAmong events).eventsOf chatId ids).map Event.plain := by
    unfold Reader.eventsOf
    rw [List.map_filterMap]
    congr 1
    funext id
    exact s.eventOf?_plain events chatId id
  exact Reader.messages_eq_of_map (f := Event.plain) rfl rfl rfl (congrFun hreactions chatId)
    (fun _ => rfl) Event.render?_plain hevents

theorem reader_plain (s : Store) : s.plain.reader.Alike s.reader := by
  have hvalues : s.plain.events.values = s.events.values.map Event.plain := by
    simp only [Table.values, plain, Table.map, List.map_map, Function.comp_def]
  have halike := s.readerAmong_plain s.events.values
  rw [← hvalues] at halike
  exact halike

-- The stored events in the order of some identifiers.
def eventsBy (s : Store) (order : List String) : List Event := order.filterMap s.events.get?

theorem eventsBy_plain (s : Store) (order : List String) :
    s.plain.eventsBy order = (s.eventsBy order).map Event.plain := by
  unfold eventsBy
  rw [List.map_filterMap]
  congr 1
  funext id
  exact Table.get?_map ..

-- After every history of batches. A batch and the same batch made plain amount to the same changes.
-- The stores after them are the same up to how their events are sealed: they answer alike, also
-- when both go through their events in some other order, and so every hub announces the same.
theorem encryption_transparent (ownUserId : String) (batches : List Batch) (b : Batch) :
    let s := (ofBatches ownUserId batches).apply b
    let t := (ofBatches ownUserId batches).apply b.plain
    b.plain.changes = b.changes ∧ t.plain = s.plain ∧ t.reader.Alike s.reader ∧
      (∀ order, (t.readerAmong (t.eventsBy order)).Alike (s.readerAmong (s.eventsBy order))) ∧
      ∀ (h : Hub) (now : Nat) (time : Int) (c : Change),
        h.announce t.reader.messages now time c = h.announce s.reader.messages now time c := by
  intro s t
  have hsame : t.plain = s.plain := by
    rw [apply_plain, apply_plain, Batch.plain_plain]
  have halike : t.reader.Alike s.reader := by
    have ht := t.reader_plain
    rw [hsame] at ht
    exact ht.symm.trans s.reader_plain
  refine ⟨b.changes_plain, hsame, halike, fun order => ?_, fun h now time c => ?_⟩
  · have ht := t.readerAmong_plain (t.eventsBy order)
    rw [← eventsBy_plain, hsame, eventsBy_plain] at ht
    exact ht.symm.trans (s.readerAmong_plain (s.eventsBy order))
  · rw [halike.messages]

end Store

end ChatRelay

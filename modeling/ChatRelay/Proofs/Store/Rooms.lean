import ChatRelay.Proofs.Store.Idempotence

namespace ChatRelay

namespace Room

-- A room as it is known after an entry for it.
def listed (ownUserId roomId : String) (known : Option Room) (entry : RoomSync) : Room :=
  let r := known.getD (.unnamed ownUserId roomId)
  (entry.metadata.map r.describe).getD r

theorem listed_of_untouched {ownUserId roomId : String} {entry : RoomSync}
    (h : entry.metadataChanged = false) (known : Option Room) :
    listed ownUserId roomId known entry = known.getD (.unnamed ownUserId roomId) := by
  unfold RoomSync.metadataChanged at h
  unfold listed
  split at h
  · next hnone =>
    rw [hnone]
    rfl
  · next hnull =>
    rw [hnull]
    rfl
  · cases h

theorem foldl_listed_of_untouched {ownUserId roomId : String} {entries : List RoomSync}
    (h : ∀ entry ∈ entries, entry.metadataChanged = false) (known : Option Room) :
    entries.foldl (fun known entry => some (listed ownUserId roomId known entry)) known =
      if entries.isEmpty then known else some (known.getD (.unnamed ownUserId roomId)) := by
  induction entries generalizing known with
  | nil => rfl
  | cons entry rest ih =>
    rw [List.foldl_cons, listed_of_untouched (h entry List.mem_cons_self),
      ih fun e he => h e (List.mem_cons_of_mem entry he)]
    cases rest <;> rfl

end Room

namespace Store

theorem ownUserId_of_mem {op : Store → Store} (h : band.mem op) (s : Store) :
    (op s).ownUserId = s.ownUserId := by
  obtain ⟨_, _, _, -, -, -, hop⟩ := h s.ownUserId
  rw [hop s rfl]

theorem ownUserId_ofBatches (ownUserId : String) (batches : List Batch) :
    (ofBatches ownUserId batches).ownUserId = ownUserId :=
  ownUserId_of_mem (band.foldl batches fun b _ => apply_mem b) { ownUserId }

-- Of a table by rooms, only what is there for the rooms that were left is gone.
theorem get?_view_afterLeaving {α : Type} (view : Store → Table α)
    (hleave : ∀ s roomId, view (s.leave roomId) = (view s).erase roomId) (s : Store) (b : Batch)
    (roomId : String) :
    (view (s.afterLeaving b)).get? roomId =
      if roomId ∈ b.leftRooms.map Text.trim then none else (view s).get? roomId := by
  unfold afterLeaving
  induction b.leftRooms.map Text.trim generalizing s with
  | nil => rfl
  | cons left rest ih =>
    rw [List.foldl_cons, ih, hleave, Table.get?_erase]
    by_cases h : roomId = left <;> simp [h]

theorem get?_rooms_afterLeaving (s : Store) (b : Batch) (roomId : String) :
    (s.afterLeaving b).rooms.get? roomId =
      if roomId ∈ b.leftRooms.map Text.trim then none else s.rooms.get? roomId :=
  get?_view_afterLeaving rooms (fun _ _ => rfl) s b roomId

theorem get?_rooms_applyRoom (s : Store) (roomId : String) (entry : RoomSync) (id : String) :
    (s.applyRoom roomId entry).rooms.get? id =
      if roomId = id then some (.listed s.ownUserId id (s.rooms.get? id) entry)
      else s.rooms.get? id := by
  simp only [applyRoom, foldl_record_rooms, enter, Table.get?_insert]
  by_cases h : roomId = id
  · subst h
    rfl
  · simp [h, Ne.symm h]

-- What is known of a room follows the entries for it alone.
theorem get?_rooms_apply (s : Store) (b : Batch) (roomId : String) :
    (s.apply b).rooms.get? roomId =
      (b.entriesOf roomId).foldl
        (fun known entry => some (.listed s.ownUserId roomId known entry))
        ((s.afterLeaving b).rooms.get? roomId) := by
  have hleft := band.foldl (b.leftRooms.map Text.trim) fun roomId _ => leave_mem roomId
  have hrooms : ∀ (rooms : List (String × RoomSync)) (s : Store),
      (rooms.foldl (fun s room => s.applyRoom room.1 room.2) s).rooms.get? roomId =
        (rooms.filterMap fun room => if room.1 = roomId then some room.2 else none).foldl
          (fun known entry => some (.listed s.ownUserId roomId known entry))
          (s.rooms.get? roomId) := by
    intro rooms
    induction rooms with
    | nil => exact fun _ => rfl
    | cons room rooms ih =>
      intro s
      rw [List.foldl_cons, ih, ownUserId_of_mem (applyRoom_mem room.1 room.2),
        get?_rooms_applyRoom, List.filterMap_cons]
      by_cases h : room.1 = roomId
      · simp only [h, if_true, List.foldl_cons]
      · simp only [h, if_false]
  have happly := hrooms b.namedRooms (s.afterLeaving b)
  rw [afterLeaving, ownUserId_of_mem hleft] at happly
  exact happly

-- After every history of batches. If the last change of a chat in a batch is that it came or
-- changed, the chat is known after the batch. If it is that the chat went, nothing touched the
-- entries for the chat, and if there are any the chat is known as a new one, otherwise it is not
-- known.
theorem known_after_announcement {ownUserId chatId : String} {batches : List Batch} {b : Batch}
    {kind : ChangeKind} (hlast : b.lastChatKind? chatId = some kind) :
    let s := (ofBatches ownUserId batches).apply b
    (kind = .chatUpserted ∧ ∃ r, s.rooms.get? chatId = some r) ∨
      (kind = .chatDeleted ∧
        (∀ entry ∈ b.entriesOf chatId, (RoomChanges.ofRoom entry).touched = false) ∧
        s.rooms.get? chatId =
          if (b.entriesOf chatId).isEmpty then none else some (.unnamed ownUserId chatId)) := by
  intro s
  have hrooms := (ofBatches ownUserId batches).get?_rooms_apply b chatId
  rw [ownUserId_ofBatches] at hrooms
  rw [Batch.lastChatKind?_eq] at hlast
  split at hlast
  · next htouched =>
    obtain ⟨entry, hentry, -⟩ := List.any_eq_true.mp htouched
    obtain ⟨before, last, hentries⟩ :=
      (List.eq_nil_or_concat _).resolve_left (List.ne_nil_of_mem hentry)
    rw [hentries, List.concat_eq_append, List.foldl_append] at hrooms
    exact .inl ⟨(Option.some.inj hlast).symm, _, hrooms⟩
  · next htouched =>
    split at hlast
    · next hleft =>
      have huntouched : ∀ entry ∈ b.entriesOf chatId,
          (RoomChanges.ofRoom entry).touched = false := by
        simpa using htouched
      have hmetadata : ∀ entry ∈ b.entriesOf chatId, entry.metadataChanged = false := by
        intro entry hentry
        have hchanged := RoomChanges.changed_of_touched_eq_false (huntouched entry hentry)
        simp only [RoomSync.changed, Bool.or_eq_false_iff] at hchanged
        exact hchanged.1.1.1
      have hgone : chatId ∈ b.leftRooms.map Text.trim := by
        obtain ⟨left, hm, hid⟩ := List.mem_filterMap.mp hleft
        exact List.mem_map.mpr ⟨left, hm, (Text.nonBlank?_eq_some_iff.mp hid).1.symm⟩
      rw [Room.foldl_listed_of_untouched hmetadata, get?_rooms_afterLeaving, if_pos hgone] at hrooms
      exact .inr ⟨(Option.some.inj hlast).symm, huntouched, hrooms⟩
    · cases hlast

-- A room is left, and listed without anything about it.
def leftAndListed : Batch := { leftRooms := ["!a"], rooms := .ofList [("!a", {})] }

theorem leftAndListed_known :
    leftAndListed.lastChatKind? "!a" = some .chatDeleted ∧
      ((ofBatches "" [batchOf [written]]).apply leftAndListed).rooms.get? "!a" =
        some (.unnamed "" "!a") := by
  have hlast : leftAndListed.lastChatKind? "!a" = some .chatDeleted := by decide
  refine ⟨hlast, ?_⟩
  rcases @known_after_announcement "" "!a" [batchOf [written]] _ _ hlast with
    ⟨hkind, -⟩ | ⟨-, -, hnew⟩
  · cases hkind
  · exact hnew

-- A chat can be known although the only thing that is said about it is that it went.
theorem deleted_can_be_known :
    ¬∀ (ownUserId chatId : String) (batches : List Batch) (b : Batch) (kind : ChangeKind),
      b.lastChatKind? chatId = some kind →
      ((((ofBatches ownUserId batches).apply b).rooms.get? chatId).isSome = true ↔
        kind = .chatUpserted) := by
  intro h
  have hknown := h "" "!a" [] leftAndListed .chatDeleted (by decide)
  exact absurd (hknown.mp rfl) (by decide)

end Store

end ChatRelay

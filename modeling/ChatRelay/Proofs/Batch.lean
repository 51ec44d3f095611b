import ChatRelay.Change.OfBatch
import ChatRelay.Proofs.Table
import ChatRelay.Proofs.Text

namespace ChatRelay

namespace Event

theorem trim_of_id? {e : Event} {id : String} (h : e.id? = some id) : Text.trim id = id :=
  Text.trim_of_nonBlank? h

theorem trim_of_target? {e : Event} {id : String} (h : e.target? = some id) :
    Text.trim id = id := by
  obtain ⟨related, -, h⟩ := Option.bind_eq_some_iff.mp h
  exact Text.trim_of_nonBlank? h

theorem trim_of_upsertTarget? {e : Event} {id : String} (h : e.upsertTarget? = some id) :
    Text.trim id = id := by
  unfold upsertTarget? at h
  split at h
  · cases ht : e.target? with
    | none => exact trim_of_id? (by simpa [ht] using h)
    | some target =>
      obtain rfl : target = id := by simpa [ht] using h
      exact trim_of_target? ht
  · exact trim_of_id? h

theorem trim_of_deletes {e : Event} {id : String} (h : e.effect = .deletes (some id)) :
    Text.trim id = id := by
  simp only [effect] at h
  split at h
  · exact trim_of_target? (Effect.deletes.inj h)
  · split at h
    · exact trim_of_id? (Effect.deletes.inj h)
    · split at h
      · cases h
      · split at h <;> cases h

theorem trim_of_upserts {e : Event} {id : String} (h : e.effect = .upserts (some id)) :
    Text.trim id = id := by
  simp only [effect] at h
  split at h
  · cases h
  · split at h
    · cases h
    · split at h
      · exact trim_of_upsertTarget? (Effect.upserts.inj h)
      · split at h <;> cases h

end Event

namespace IdSet

-- Every identifier of the set is trimmed.
def Trimmed (s : IdSet) : Prop := ∀ id ∈ s, Text.trim id = id

theorem trimmed_empty : Trimmed ∅ := by
  intro id hid
  cases hid

theorem Trimmed.insert {s : IdSet} (hs : s.Trimmed) {id : String} (hid : Text.trim id = id) :
    (s.insert id).Trimmed := by
  intro other ho
  rcases mem_insert.mp ho with rfl | ho
  · exact hid
  · exact hs other ho

theorem Trimmed.filter {s : IdSet} (hs : s.Trimmed) (p : String → Bool) : (s.filter p).Trimmed :=
  fun id hid => hs id (List.mem_filter.mp hid).1

end IdSet

namespace RoomChanges

theorem trimmed_insertSome {s : IdSet} (hs : s.Trimmed) {id : Option String}
    (hid : ∀ i, id = some i → Text.trim i = i) : (insertSome s id).Trimmed := by
  cases id with
  | none => exact hs
  | some i => exact hs.insert (hid i rfl)

theorem trimmed_add {c : RoomChanges} (hu : c.upserted.Trimmed) (hd : c.deleted.Trimmed)
    (e : Event) : (c.add e).upserted.Trimmed ∧ (c.add e).deleted.Trimmed := by
  unfold add
  cases he : e.effect with
  | deletes id =>
    refine ⟨hu, trimmed_insertSome hd fun i hi => ?_⟩
    exact Event.trim_of_deletes (hi ▸ he)
  | upserts id =>
    refine ⟨trimmed_insertSome hu fun i hi => ?_, hd⟩
    exact Event.trim_of_upserts (hi ▸ he)
  | touches => exact ⟨hu, hd⟩
  | nothing => exact ⟨hu, hd⟩

theorem trimmed_foldl_add {c : RoomChanges} (hu : c.upserted.Trimmed) (hd : c.deleted.Trimmed)
    (events : List Event) :
    (events.foldl add c).upserted.Trimmed ∧ (events.foldl add c).deleted.Trimmed := by
  induction events generalizing c with
  | nil => exact ⟨hu, hd⟩
  | cons e events ih =>
    obtain ⟨hu, hd⟩ := trimmed_add hu hd e
    exact ih hu hd

-- All that is reported of a room.
theorem mem_toChanges_iff {rc : RoomChanges} {chatId : String} {c : Change} :
    c ∈ rc.toChanges chatId ↔
      (rc.touched = true ∧ c = .ofChat .chatUpserted chatId) ∨
        (rc.upserted.diff rc.deleted ≠ ∅ ∧
          c = .ofMessages .messageUpserted chatId (rc.upserted.diff rc.deleted)) ∨
        (rc.deleted ≠ ∅ ∧ c = .ofMessages .messageDeleted chatId rc.deleted) := by
  have hif {p : Prop} [Decidable p] {d : Change} : c ∈ (if p then [d] else []) ↔ p ∧ c = d := by
    by_cases h : p <;> simp [h]
  have hunless {s : IdSet} {d : Change} :
      c ∈ (if s.isEmpty then [] else [d]) ↔ s ≠ ∅ ∧ c = d := by
    rw [ne_eq, ← IdSet.isEmpty_iff, ← hif, ite_not]
  simp only [toChanges, List.mem_append, hif, hunless, or_assoc]

theorem mem_toChanges {rc : RoomChanges} {chatId : String} {c : Change}
    (hc : c ∈ rc.toChanges chatId) :
    c = .ofChat .chatUpserted chatId ∨
      c = .ofMessages .messageUpserted chatId (rc.upserted.diff rc.deleted) ∨
      c = .ofMessages .messageDeleted chatId rc.deleted :=
  (mem_toChanges_iff.mp hc).imp And.right (Or.imp And.right And.right)

theorem trimmed_toChanges {rc : RoomChanges} (hu : rc.upserted.Trimmed) (hd : rc.deleted.Trimmed)
    {chatId : String} (hchat : Text.trim chatId = chatId) {c : Change}
    (hc : c ∈ rc.toChanges chatId) : c.ids.Trimmed := by
  rcases mem_toChanges hc with rfl | rfl | rfl
  · exact IdSet.trimmed_empty.insert hchat
  · exact hu.filter _
  · exact hd

theorem mem_insertSome {s : IdSet} {id : Option String} {x : String} :
    x ∈ insertSome s id ↔ id = some x ∨ x ∈ s := by
  cases id with
  | none => simp [insertSome]
  | some i => simp [insertSome, IdSet.mem_insert, eq_comm]

-- What each event adds on its own, a list of events adds if one of them does.
theorem foldl_add_iff {P : RoomChanges → Prop} {Q : Event → Prop}
    (hadd : ∀ c e, P (c.add e) ↔ P c ∨ Q e) (c : RoomChanges) (events : List Event) :
    P (events.foldl add c) ↔ P c ∨ ∃ e ∈ events, Q e := by
  induction events generalizing c with
  | nil => simp
  | cons e events ih =>
    rw [List.foldl_cons, ih, hadd]
    simp [or_assoc]

-- What went in a room is what its events delete, wherever they stand.
theorem mem_deleted_ofRoom {r : RoomSync} {id : String} :
    id ∈ (ofRoom r).deleted ↔ ∃ e ∈ r.events, e.effect = .deletes (some id) := by
  have hadd (c : RoomChanges) (e : Event) :
      id ∈ (c.add e).deleted ↔ id ∈ c.deleted ∨ e.effect = .deletes (some id) := by
    unfold add
    cases e.effect with
    | deletes i => simp [mem_insertSome, or_comm]
    | upserts | touches | nothing => simp
  rw [ofRoom, foldl_add_iff (P := fun c => id ∈ c.deleted) hadd]
  simp [IdSet.not_mem_empty]

theorem mem_upserted_ofRoom {r : RoomSync} {id : String} :
    id ∈ (ofRoom r).upserted ↔ ∃ e ∈ r.events, e.effect = .upserts (some id) := by
  have hadd (c : RoomChanges) (e : Event) :
      id ∈ (c.add e).upserted ↔ id ∈ c.upserted ∨ e.effect = .upserts (some id) := by
    unfold add
    cases e.effect with
    | upserts i => simp [mem_insertSome, or_comm]
    | deletes | touches | nothing => simp
  rw [ofRoom, foldl_add_iff (P := fun c => id ∈ c.upserted) hadd]
  simp [IdSet.not_mem_empty]

-- A room is touched if it changed apart from its events, or by an event that changes it or its
-- messages.
theorem touched_ofRoom {r : RoomSync} :
    (ofRoom r).touched = true ↔
      r.changed = true ∨ ∃ e ∈ r.events, e.effect = .touches ∨ ∃ id, e.effect = .upserts id := by
  refine foldl_add_iff (P := fun c => c.touched = true) (fun c e => ?_) _ r.events
  unfold add
  cases e.effect <;> simp

theorem changed_of_touched_eq_false {r : RoomSync} (h : (ofRoom r).touched = false) :
    r.changed = false := by
  rw [← Bool.not_eq_true, touched_ofRoom, not_or, Bool.not_eq_true] at h
  exact h.1

end RoomChanges

-- All that is reported of a batch: rooms that were left, and what its entries say.
theorem Batch.mem_changes {b : Batch} {c : Change} (hc : c ∈ b.changes) :
    (∃ left ∈ b.leftRooms, Text.nonBlank? left = some c.chatId ∧
        c = .ofChat .chatDeleted c.chatId) ∨
      ∃ room, (c.chatId, room) ∈ b.namedRooms ∧
        c ∈ (RoomChanges.ofRoom room).toChanges c.chatId := by
  simp only [changes, List.mem_append, List.mem_map, List.mem_flatMap, List.mem_filterMap] at hc
  rcases hc with ⟨chatId, ⟨left, hleft, hid⟩, rfl⟩ | ⟨⟨chatId, room⟩, hroom, hc⟩
  · exact .inl ⟨left, hleft, hid, rfl⟩
  · obtain rfl : c.chatId = chatId := by
      rcases RoomChanges.mem_toChanges hc with rfl | rfl | rfl <;> rfl
    exact .inr ⟨room, hroom, hc⟩

-- Messages that went are reported for the room that they went in.
theorem Batch.deleted_of_mem_changes {b : Batch} {c : Change} (hc : c ∈ b.changes)
    (hkind : c.kind = .messageDeleted) :
    ∃ room, (c.chatId, room) ∈ b.namedRooms ∧ c.ids = (RoomChanges.ofRoom room).deleted := by
  rcases mem_changes hc with ⟨left, -, -, hc⟩ | ⟨room, hroom, hc⟩
  · rw [hc] at hkind
    cases hkind
  · refine ⟨room, hroom, ?_⟩
    rcases RoomChanges.mem_toChanges hc with hc | hc | hc <;> rw [hc] at hkind ⊢
    · cases hkind
    · cases hkind
    · rfl

-- Messages that came or changed are reported for the room that they are in, unless they went in it.
theorem Batch.upserted_of_mem_changes {b : Batch} {c : Change} (hc : c ∈ b.changes)
    (hkind : c.kind = .messageUpserted) :
    ∃ room, (c.chatId, room) ∈ b.namedRooms ∧
      c.ids = (RoomChanges.ofRoom room).upserted.diff (RoomChanges.ofRoom room).deleted := by
  rcases mem_changes hc with ⟨left, -, -, hc⟩ | ⟨room, hroom, hc⟩
  · rw [hc] at hkind
    cases hkind
  · refine ⟨room, hroom, ?_⟩
    rcases RoomChanges.mem_toChanges hc with hc | hc | hc <;> rw [hc] at hkind ⊢
    · cases hkind
    · rfl
    · cases hkind

theorem Batch.trimmed_changes {b : Batch} {c : Change} (hc : c ∈ b.changes) : c.ids.Trimmed := by
  rcases mem_changes hc with ⟨left, -, hleft, hc⟩ | ⟨room, hroom, hc⟩
  · rw [hc]
    exact IdSet.trimmed_empty.insert (Text.trim_of_nonBlank? hleft)
  · obtain ⟨⟨key, r⟩, -, hkey⟩ := List.mem_filterMap.mp hroom
    obtain ⟨id, hid, hr⟩ := Option.map_eq_some_iff.mp hkey
    obtain ⟨rfl, rfl⟩ := Prod.mk.inj hr
    obtain ⟨hu, hd⟩ := RoomChanges.trimmed_foldl_add (c := { touched := r.changed })
      IdSet.trimmed_empty IdSet.trimmed_empty r.events
    exact RoomChanges.trimmed_toChanges hu hd (Text.trim_of_nonBlank? hid) hc

-- The entries of a batch for one room, in their order.
def Batch.entriesOf (b : Batch) (roomId : String) : List RoomSync :=
  b.namedRooms.filterMap fun room => if room.1 = roomId then some room.2 else none

theorem Batch.mem_entriesOf {b : Batch} {roomId : String} {entry : RoomSync} :
    entry ∈ b.entriesOf roomId ↔ (roomId, entry) ∈ b.namedRooms := by
  simp [entriesOf, List.mem_filterMap]

-- Whether a change is of a chat itself and not of its messages.
def Change.isOfChat (chatId : String) (c : Change) : Bool :=
  c.chatId == chatId && (c.kind == .chatUpserted || c.kind == .chatDeleted)

theorem RoomChanges.chatChanges_toChanges (rc : RoomChanges) (roomId chatId : String) :
    (rc.toChanges roomId).filter (·.isOfChat chatId) =
      if roomId = chatId ∧ rc.touched = true then [.ofChat .chatUpserted chatId] else [] := by
  unfold toChanges
  by_cases hroom : roomId = chatId
  · subst hroom
    cases rc.touched <;> cases (rc.upserted.diff rc.deleted).isEmpty <;>
      cases rc.deleted.isEmpty <;> simp [Change.isOfChat, Change.ofChat, Change.ofMessages]
  · cases rc.touched <;> cases (rc.upserted.diff rc.deleted).isEmpty <;>
      cases rc.deleted.isEmpty <;> simp [Change.isOfChat, Change.ofChat, Change.ofMessages, hroom]

namespace Batch

-- The last thing that a batch says about a chat itself.
def lastChatKind? (b : Batch) (chatId : String) : Option ChangeKind :=
  (b.changes.filter (·.isOfChat chatId)).getLast?.map (·.kind)

theorem chatChanges_eq (b : Batch) (chatId : String) :
    b.changes.filter (·.isOfChat chatId) =
      ((b.leftRooms.filterMap Text.nonBlank?).filter (· == chatId)).map (.ofChat .chatDeleted) ++
        ((b.entriesOf chatId).filter fun entry => (RoomChanges.ofRoom entry).touched).map
          fun _ => .ofChat .chatUpserted chatId := by
  unfold changes entriesOf
  rw [List.filter_append, List.filter_map]
  congr 1
  · congr 2
    funext id
    simp [Change.isOfChat, Change.ofChat]
  · induction b.namedRooms with
    | nil => rfl
    | cons room rooms ih =>
      rw [List.flatMap_cons, List.filter_append, ih, RoomChanges.chatChanges_toChanges,
        List.filterMap_cons]
      by_cases h : room.1 = chatId
      · by_cases htouched : (RoomChanges.ofRoom room.2).touched = true <;> simp [h, htouched]
      · simp [h]

theorem lastChatKind?_eq (b : Batch) (chatId : String) :
    b.lastChatKind? chatId =
      if (b.entriesOf chatId).any fun entry => (RoomChanges.ofRoom entry).touched then
        some .chatUpserted
      else if chatId ∈ b.leftRooms.filterMap Text.nonBlank? then some .chatDeleted
      else none := by
  unfold lastChatKind?
  rw [chatChanges_eq, List.getLast?_append, List.getLast?_map, List.getLast?_map]
  cases htouched : ((b.entriesOf chatId).filter
      fun entry => (RoomChanges.ofRoom entry).touched).getLast? with
  | some entry =>
    have hany := List.any_eq_true.mpr ⟨entry, List.mem_filter.mp (List.mem_of_getLast? htouched)⟩
    rw [if_pos hany]
    rfl
  | none =>
    have hnone := List.filter_eq_nil_iff.mp (List.getLast?_eq_none_iff.mp htouched)
    rw [if_neg fun hany => by
      obtain ⟨entry, hentry, htouched⟩ := List.any_eq_true.mp hany
      exact hnone entry hentry htouched]
    cases hleft : ((b.leftRooms.filterMap Text.nonBlank?).filter (· == chatId)).getLast? with
    | some id =>
      obtain ⟨hid, heq⟩ := List.mem_filter.mp (List.mem_of_getLast? hleft)
      obtain rfl := eq_of_beq heq
      rw [if_pos hid]
      rfl
    | none =>
      have hnone := List.filter_eq_nil_iff.mp (List.getLast?_eq_none_iff.mp hleft)
      rw [if_neg fun hid => hnone chatId hid (beq_self_eq_true chatId)]
      rfl

end Batch

end ChatRelay

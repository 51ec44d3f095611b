import Mathlib.Data.List.Pairwise
import ChatRelay.Proofs.Change.OfBatch

namespace ChatRelay

namespace Change

-- Changes that pass from chat to chat in ascending order, say one thing of each kind about a chat,
-- and of no message of a chat both that it came or changed and that it went.
structure OneVerdict (changes : List Change) : Prop where
  ordered : (changes.map (·.chatId)).Pairwise (· ≤ ·)
  once : (changes.map fun c => (c.chatId, c.kind)).Nodup
  decided : ∀ came ∈ changes, ∀ went ∈ changes, came.kind = .messageUpserted →
    went.kind = .messageDeleted → came.chatId = went.chatId → ∀ id ∈ came.ids, id ∉ went.ids

-- A change says that a message came or changed, and the other one that it went.
def Contradicts (came went : Change) : Prop :=
  came.kind = .messageUpserted ∧ went.kind = .messageDeleted ∧ ∃ id, id ∈ came.ids ∧ id ∈ went.ids

-- A change and a later one.
structure Agrees (c d : Change) : Prop where
  ordered : c.chatId ≤ d.chatId
  once : c.chatId = d.chatId → c.kind ≠ d.kind
  decided : c.chatId = d.chatId → ¬c.Contradicts d ∧ ¬d.Contradicts c

theorem oneVerdict_iff {changes : List Change} :
    OneVerdict changes ↔ changes.Pairwise Agrees := by
  constructor
  · rintro ⟨hordered, honce, hdecided⟩
    refine ((List.pairwise_map.mp hordered).and (List.pairwise_map.mp honce)).imp_of_mem ?_
    intro c d hc hd hcd
    refine ⟨hcd.1, fun hchat hkind => hcd.2 (by rw [hchat, hkind]), fun hchat => ⟨?_, ?_⟩⟩
    · rintro ⟨hcame, hwent, id, hid, hid'⟩
      exact hdecided c hc d hd hcame hwent hchat id hid hid'
    · rintro ⟨hcame, hwent, id, hid, hid'⟩
      exact hdecided d hd c hc hcame hwent hchat.symm id hid hid'
  · intro h
    refine ⟨List.pairwise_map.mpr (h.imp Agrees.ordered), List.pairwise_map.mpr (h.imp ?_), ?_⟩
    · intro c d hcd heq
      exact hcd.once (congrArg Prod.fst heq) (congrArg Prod.snd heq)
    · intro came hcame went hwent hupserted hdeleted hchat id hid hid'
      have hne : came ≠ went := by
        rintro rfl
        cases hupserted.symm.trans hdeleted
      have hsymm : Std.Symm fun c d : Change =>
          c.chatId = d.chatId → ¬c.Contradicts d ∧ ¬d.Contradicts c :=
        ⟨fun c d hcd hchat => (hcd hchat.symm).symm⟩
      have hfree := (h.imp Agrees.decided).forall hcame hwent hne hchat
      exact hfree.1 ⟨hupserted, hdeleted, id, hid, hid'⟩

end Change

namespace RoomSync

-- Whether an entry has anything said about its chat.
def IsTold (r : RoomSync) : Prop := r.Touches ∨ ∃ id, r.Deletes id

theorem Upserts.touches {r : RoomSync} {id : String} (h : r.Upserts id) : r.Touches := by
  obtain ⟨e, he, hlive, hlike, -⟩ := h
  exact .inr (.inr (.inr (.inr ⟨e, he, hlive, .inl hlike⟩)))

-- What stands behind a change that is said of an entry.
structure Accounts (r : RoomSync) (chatId : String) (c : Change) : Prop where
  chat : c.chatId = chatId
  told : r.IsTold
  kind : c.kind ≠ .chatDeleted
  touched : c.kind = .chatUpserted → r.Touches
  came : c.kind = .messageUpserted → r.Touches ∧ ∀ id ∈ c.ids, r.Upserts id
  went : c.kind = .messageDeleted → (∃ id, r.Deletes id) ∧ ∀ id ∈ c.ids, r.Deletes id

end RoomSync

namespace RoomChanges

theorem accounts_of_mem {r : RoomSync} {chatId : String} {c : Change}
    (hc : c ∈ (ofRoom r).toChanges chatId) : r.Accounts chatId c := by
  rcases mem_toChanges_iff.mp hc with ⟨htouched, rfl⟩ | ⟨hsome, rfl⟩ | ⟨hsome, rfl⟩
  · have htouches := touched_iff.mp htouched
    exact ⟨rfl, .inl htouches, nofun, fun _ => htouches, nofun, nofun⟩
  · have hcame : ∀ id ∈ (ofRoom r).upserted.diff (ofRoom r).deleted, r.Upserts id :=
      fun id hid => mem_upserted_iff.mp (IdSet.mem_diff.mp hid).1
    obtain ⟨id, hid⟩ := IdSet.ne_empty_iff.mp hsome
    have htouches := (hcame id hid).touches
    exact ⟨rfl, .inl htouches, nofun, nofun, fun _ => ⟨htouches, hcame⟩, nofun⟩
  · have hwent : ∀ id ∈ (ofRoom r).deleted, r.Deletes id := fun id hid => mem_deleted_iff.mp hid
    obtain ⟨id, hid⟩ := IdSet.ne_empty_iff.mp hsome
    exact ⟨rfl, .inr ⟨id, hwent id hid⟩, nofun, nofun, nofun, fun _ => ⟨⟨id, hwent id hid⟩, hwent⟩⟩

theorem exists_touching {r : RoomSync} (h : r.Touches) (chatId : String) :
    ∃ c ∈ (ofRoom r).toChanges chatId, c.kind = .chatUpserted :=
  ⟨_, mem_toChanges_iff.mpr (.inl ⟨touched_iff.mpr h, rfl⟩), rfl⟩

theorem exists_deleting {r : RoomSync} {id : String} (h : r.Deletes id) (chatId : String) :
    ∃ c ∈ (ofRoom r).toChanges chatId, c.kind = .messageDeleted ∧ id ∈ c.ids := by
  have hid : id ∈ (ofRoom r).deleted := mem_deleted_iff.mpr h
  exact ⟨_, mem_toChanges_iff.mpr (.inr (.inr ⟨IdSet.ne_empty_iff.mpr ⟨id, hid⟩, rfl⟩)), rfl, hid⟩

theorem exists_upserting {r : RoomSync} {id : String} (h : r.Upserts id) (hstays : ¬r.Deletes id)
    (chatId : String) :
    ∃ c ∈ (ofRoom r).toChanges chatId, c.kind = .messageUpserted ∧ id ∈ c.ids := by
  have hid : id ∈ (ofRoom r).upserted.diff (ofRoom r).deleted :=
    IdSet.mem_diff.mpr ⟨mem_upserted_iff.mpr h, mt mem_deleted_iff.mp hstays⟩
  exact ⟨_, mem_toChanges_iff.mpr (.inr (.inl ⟨IdSet.ne_empty_iff.mpr ⟨id, hid⟩, rfl⟩)), rfl, hid⟩

theorem exists_of_isTold {r : RoomSync} (h : r.IsTold) (chatId : String) :
    ∃ c, c ∈ (ofRoom r).toChanges chatId := by
  rcases h with htouches | ⟨id, hdeletes⟩
  · exact (exists_touching htouches chatId).imp fun _ => And.left
  · exact (exists_deleting hdeletes chatId).imp fun _ => And.left

-- What is said of one entry has one verdict.
theorem agrees_toChanges (rc : RoomChanges) (chatId : String) :
    (rc.toChanges chatId).Pairwise Change.Agrees := by
  have hsub : (rc.toChanges chatId).Sublist
      [.ofChat .chatUpserted chatId,
       .ofMessages .messageUpserted chatId (rc.upserted.diff rc.deleted),
       .ofMessages .messageDeleted chatId rc.deleted] := by
    have hone {p : Prop} [Decidable p] (c : Change) : (if p then [c] else []).Sublist [c] := by
      split
      · exact List.Sublist.refl _
      · exact List.nil_sublist _
    have hother {s : IdSet} (c : Change) : (if s.isEmpty then [] else [c]).Sublist [c] := by
      rw [← ite_not]
      exact hone c
    exact ((hone _).append (hother _)).append (hother _)
  have hdecided : ¬Change.Contradicts
      (.ofMessages .messageUpserted chatId (rc.upserted.diff rc.deleted))
      (.ofMessages .messageDeleted chatId rc.deleted) :=
    fun ⟨_, _, _, hcame, hwent⟩ => (IdSet.mem_diff.mp hcame).2 hwent
  refine List.Pairwise.sublist hsub (.cons ?_ (.cons ?_ (List.pairwise_singleton _ _)))
  · intro d hd
    rcases List.mem_pair.mp hd with rfl | rfl
    · exact ⟨String.le_refl _, fun _ => nofun, fun _ => ⟨nofun, nofun⟩⟩
    · exact ⟨String.le_refl _, fun _ => nofun, fun _ => ⟨nofun, nofun⟩⟩
  · intro d hd
    obtain rfl := List.mem_singleton.mp hd
    exact ⟨String.le_refl _, fun _ => nofun, fun _ => ⟨hdecided, nofun⟩⟩

end RoomChanges

namespace Batch

-- What a batch says after the rooms that were left.
def entryChanges (b : Batch) : List Change :=
  b.changes.drop (b.leftRooms.filterMap Text.nonBlank?).length

theorem entryChanges_eq (b : Batch) :
    b.entryChanges =
      b.namedRooms.flatMap fun room => (RoomChanges.ofRoom room.2).toChanges room.1 := by
  rw [entryChanges, changes, List.drop_left' (List.length_map _)]

-- An entry and a later one, by the names of their chats. If both are about one chat, only one of
-- them touches it, only one of them deletes messages, and what it deletes the other does not bring.
structure Concord (x y : String × RoomSync) : Prop where
  ordered : x.2.IsTold → y.2.IsTold → x.1 ≤ y.1
  touched : x.1 = y.1 → x.2.Touches → ¬y.2.Touches
  deleted : x.1 = y.1 → (∃ id, x.2.Deletes id) → ¬∃ id, y.2.Deletes id
  decided : x.1 = y.1 → ∀ id,
    ¬(x.2.Upserts id ∧ y.2.Deletes id) ∧ ¬(y.2.Upserts id ∧ x.2.Deletes id)

theorem concord_of_agrees {x y : String × RoomSync}
    (h : ∀ c ∈ (RoomChanges.ofRoom x.2).toChanges x.1,
      ∀ d ∈ (RoomChanges.ofRoom y.2).toChanges y.1, c.Agrees d) : Concord x y := by
  have hchat {r : RoomSync} {chatId : String} {c : Change}
      (hc : c ∈ (RoomChanges.ofRoom r).toChanges chatId) : c.chatId = chatId :=
    (RoomChanges.accounts_of_mem hc).chat
  have hsame {c d : Change} (hc : c ∈ (RoomChanges.ofRoom x.2).toChanges x.1)
      (hd : d ∈ (RoomChanges.ofRoom y.2).toChanges y.1) (heq : x.1 = y.1) : c.chatId = d.chatId := by
    rw [hchat hc, hchat hd, heq]
  have hdeleted (heq : x.1 = y.1) : (∃ id, x.2.Deletes id) → ¬∃ id, y.2.Deletes id := by
    rintro ⟨_, hx⟩ ⟨_, hy⟩
    obtain ⟨c, hc, hckind, -⟩ := RoomChanges.exists_deleting hx x.1
    obtain ⟨d, hd, hdkind, -⟩ := RoomChanges.exists_deleting hy y.1
    exact (h c hc d hd).once (hsame hc hd heq) (hckind.trans hdkind.symm)
  refine ⟨fun hx hy => ?_, fun heq hx hy => ?_, hdeleted, fun heq id => ⟨?_, ?_⟩⟩
  · obtain ⟨c, hc⟩ := RoomChanges.exists_of_isTold hx x.1
    obtain ⟨d, hd⟩ := RoomChanges.exists_of_isTold hy y.1
    exact hchat hc ▸ hchat hd ▸ (h c hc d hd).ordered
  · obtain ⟨c, hc, hckind⟩ := RoomChanges.exists_touching hx x.1
    obtain ⟨d, hd, hdkind⟩ := RoomChanges.exists_touching hy y.1
    exact (h c hc d hd).once (hsame hc hd heq) (hckind.trans hdkind.symm)
  · rintro ⟨hx, hy⟩
    obtain ⟨c, hc, hckind, hcid⟩ :=
      RoomChanges.exists_upserting hx (fun hgone => hdeleted heq ⟨id, hgone⟩ ⟨id, hy⟩) x.1
    obtain ⟨d, hd, hdkind, hdid⟩ := RoomChanges.exists_deleting hy y.1
    have hfree := (h c hc d hd).decided (hsame hc hd heq)
    exact hfree.1 ⟨hckind, hdkind, id, hcid, hdid⟩
  · rintro ⟨hy, hx⟩
    obtain ⟨c, hc, hckind, hcid⟩ := RoomChanges.exists_deleting hx x.1
    obtain ⟨d, hd, hdkind, hdid⟩ :=
      RoomChanges.exists_upserting hy (fun hgone => hdeleted heq ⟨id, hx⟩ ⟨id, hgone⟩) y.1
    have hfree := (h c hc d hd).decided (hsame hc hd heq)
    exact hfree.2 ⟨hdkind, hckind, id, hdid, hcid⟩

theorem Concord.agrees {x y : String × RoomSync} (h : Concord x y) {c d : Change}
    (hc : c ∈ (RoomChanges.ofRoom x.2).toChanges x.1)
    (hd : d ∈ (RoomChanges.ofRoom y.2).toChanges y.1) : c.Agrees d := by
  have hx := RoomChanges.accounts_of_mem hc
  have hy := RoomChanges.accounts_of_mem hd
  have heq (hchat : c.chatId = d.chatId) : x.1 = y.1 := by rw [← hx.chat, ← hy.chat, hchat]
  refine ⟨?_, fun hchat hkind => ?_, fun hchat => ⟨?_, ?_⟩⟩
  · rw [hx.chat, hy.chat]
    exact h.ordered hx.told hy.told
  · cases hc : c.kind with
    | chatUpserted =>
      exact h.touched (heq hchat) (hx.touched hc) (hy.touched (hkind.symm.trans hc))
    | chatDeleted => exact hx.kind hc
    | messageUpserted =>
      exact h.touched (heq hchat) (hx.came hc).1 (hy.came (hkind.symm.trans hc)).1
    | messageDeleted =>
      exact h.deleted (heq hchat) (hx.went hc).1 (hy.went (hkind.symm.trans hc)).1
  · rintro ⟨hcame, hwent, id, hid, hid'⟩
    exact (h.decided (heq hchat) id).1 ⟨(hx.came hcame).2 id hid, (hy.went hwent).2 id hid'⟩
  · rintro ⟨hcame, hwent, id, hid, hid'⟩
    exact (h.decided (heq hchat) id).2 ⟨(hy.came hcame).2 id hid, (hx.went hwent).2 id hid'⟩

theorem oneVerdict_entryChanges_iff (b : Batch) :
    Change.OneVerdict b.entryChanges ↔ b.namedRooms.Pairwise Concord := by
  rw [entryChanges_eq, Change.oneVerdict_iff, List.pairwise_flatMap]
  constructor
  · rintro ⟨-, hacross⟩
    exact hacross.imp concord_of_agrees
  · intro h
    refine ⟨fun room _ => RoomChanges.agrees_toChanges _ room.1, h.imp fun hxy c hc d hd => ?_⟩
    exact hxy.agrees hc hd

-- Keys that have no white space around them put the entries in the order of their chats.
theorem concord_of_trimmed {b : Batch} (h : ∀ key ∈ b.rooms.keys, Text.trim key = key) :
    b.namedRooms.Pairwise Concord := by
  have hkey {entry : String × RoomSync} {room : String × RoomSync} (hm : entry ∈ b.rooms.entries)
      (hroom : (Text.nonBlank? entry.1).map (·, entry.2) = some room) : room.1 = entry.1 := by
    obtain ⟨id, hid, rfl⟩ := Option.map_eq_some_iff.mp hroom
    rw [(Text.nonBlank?_eq_some_iff.mp hid).1]
    exact h entry.1 (List.mem_map_of_mem hm)
  refine List.pairwise_filterMap.mpr (b.rooms.ascending.imp_of_mem ?_)
  intro s t hs ht hlt x hx y hy
  rw [← hkey hs hx, ← hkey ht hy] at hlt
  have hne : x.1 ≠ y.1 := fun heq => String.lt_irrefl _ (heq ▸ hlt)
  exact ⟨fun _ _ => String.not_lt.mp (String.lt_asymm hlt), fun heq => absurd heq hne,
    fun heq => absurd heq hne, fun heq => absurd heq hne⟩

-- A batch has one verdict on each chat exactly if every two of its entries are in concord. They are
-- if the keys of the batch have no white space around them.
theorem one_verdict_iff_concord (b : Batch) :
    (Change.OneVerdict b.entryChanges ↔ b.namedRooms.Pairwise Concord) ∧
      ((∀ key ∈ b.rooms.keys, Text.trim key = key) → Change.OneVerdict b.entryChanges) :=
  ⟨b.oneVerdict_entryChanges_iff, fun h => b.oneVerdict_entryChanges_iff.mpr (concord_of_trimmed h)⟩

def brought : Event := { eventId := "$1", type := EventType.message }

def takenBack : Event := { eventId := "$2", type := EventType.redaction, relatesTo := some "$1" }

-- Two chats, in one of which a message is brought and taken back.
def plainKeys : Batch :=
  { rooms := .ofList [("!b", { events := [brought, takenBack] }), ("!a", { timeline := [.null] })] }

theorem plainKeys_one_verdict :
    (∀ key ∈ plainKeys.rooms.keys, Text.trim key = key) ∧ Change.OneVerdict plainKeys.entryChanges ∧
      plainKeys.entryChanges =
        [.ofChat .chatUpserted "!a", .ofChat .chatUpserted "!b",
         .ofMessages .messageDeleted "!b" (.ofList ["$1"])] := by
  have hkeys : ∀ key ∈ plainKeys.rooms.keys, Text.trim key = key := by decide +kernel
  exact ⟨hkeys, (one_verdict_iff_concord plainKeys).2 hkeys, by decide +kernel⟩

-- One chat has two entries, with another chat's between them. The first brings a message, and the
-- last one takes it back.
def paddedKey : Batch :=
  { rooms := .ofList [(" !b", { events := [brought] }), ("!a", { timeline := [.null] }),
      ("!b", { events := [takenBack, { brought with eventId := "$3" }] })] }

-- A batch can go back to a chat, say the same kind of thing of it again, and say of a message both
-- that it came and that it went.
theorem verdicts_can_differ :
    ¬(∀ b : Batch, Change.OneVerdict b.entryChanges) ∧
      ¬(paddedKey.entryChanges.map (·.chatId)).Pairwise (· ≤ ·) ∧
      ¬(paddedKey.entryChanges.map fun c => (c.chatId, c.kind)).Nodup ∧
      ∃ came ∈ paddedKey.entryChanges, ∃ went ∈ paddedKey.entryChanges,
        came.chatId = went.chatId ∧ came.Contradicts went := by
  have hordered : ¬(paddedKey.entryChanges.map (·.chatId)).Pairwise (· ≤ ·) := by decide +kernel
  refine ⟨fun h => hordered (h paddedKey).ordered, hordered, by decide +kernel,
    .ofMessages .messageUpserted "!b" (.ofList ["$1"]), by decide +kernel,
    .ofMessages .messageDeleted "!b" (.ofList ["$1"]), by decide +kernel, rfl, rfl, rfl, "$1", ?_⟩
  exact ⟨List.mem_singleton_self _, List.mem_singleton_self _⟩

end Batch

end ChatRelay

import ChatRelay.Proofs.Batch
import ChatRelay.Proofs.Hub.Delivery
import ChatRelay.Proofs.Message.Lookup

namespace ChatRelay.Hub

-- The messages of every announcement are looked up in some reader, each time another one.
def Step.AsksReader : Step → Prop
  | dispatch o => ∃ r : Reader, o.lookup = r.messages
  | _ => True

-- What is announced comes from a batch, and the mapping of batches trims its identifiers.
theorem trimmed_of_dispatch? {settings : HubSettings} {before : List Step} {s : Step}
    {d : Dispatch} (hd : ((started settings).run before).dispatch? s = some d) :
    d.change.ids.Trimmed := by
  have hmem : d ∈ (started settings).dispatches (before ++ [s]) := by
    simp [dispatches_append, dispatches, hd]
  have hchange : d.change ∈ ((started settings).taken (before ++ [s])).flatMap Batch.changes := by
    have hall := dispatches_changes (started settings) (before ++ [s])
    rw [show (started settings).pending = [] from rfl, List.nil_append] at hall
    rw [← hall]
    exact List.mem_append_left _ (List.mem_map_of_mem hmem)
  obtain ⟨b, -, hb⟩ := List.mem_flatMap.mp hchange
  exact Batch.trimmed_changes hb

theorem trim_ids {s : IdSet} (h : s.Trimmed) : s.toList.map Text.trim = s.toList :=
  (List.map_congr_left h).trans (List.map_id' _)

-- The entries are those of the messages that the lookup found.
theorem entries_eq_some {d : Dispatch} {entries : List Json} (h : d.entries = some entries) :
    ∃ ms, d.occasion.lookup d.change.chatId d.change.ids.toList = .ok ms ∧
      entries = ms.map Message.toJson := by
  unfold Dispatch.entries at h
  split at h
  · split at h
    · next ms hms => exact ⟨ms, hms, (Option.some.inj h).symm⟩
    · cases h
  · cases h

-- Whether a connection wants to hear about a chat.
def AskedFor (h : Hub) (id : ConnectionId) (chatId : String) : Prop :=
  ∃ s, h.registry.subscription? id = some s ∧
    (s = .everything ∨ ∃ chats, s = .chats chats ∧ chatId ∈ chats)

-- Every entry shows an event of the chat that the reader answered, and neither a redacted one nor
-- an edit. Their identifiers are among those of the frame, in its order and each once.
def ShowsChat (r : Reader) (m : ChangeMessage) : Prop :=
  ∀ entries, m.entries = some entries →
    (∀ entry ∈ entries, entry.stringAt? ["chatID"] = some m.change.chatId ∧
      ∃ message, r.Shows m.change.chatId message ∧ entry = message.toJson) ∧
    ∃ ids : List String, entries.map (·.stringAt? ["id"]) = ids.map some ∧
      ids.Sublist m.change.ids.toList ∧ ids.Nodup

theorem showsChat_of_dispatch? {settings : HubSettings} {before : List Step} {s : Step}
    {d : Dispatch} (hd : ((started settings).run before).dispatch? s = some d) {r : Reader}
    (hr : d.occasion.lookup = r.messages) (id : ConnectionId) : ShowsChat r (d.message id) := by
  intro entries he
  obtain ⟨ms, hms, rfl⟩ := entries_eq_some he
  rw [hr] at hms
  obtain ⟨hsublist, hnodup⟩ := Reader.messages_sublist hms
  rw [trim_ids (trimmed_of_dispatch? hd)] at hsublist
  refine ⟨fun entry hentry => ?_, ms.map (·.id), ?_, hsublist, hnodup⟩
  · obtain ⟨message, hmessage, rfl⟩ := List.mem_map.mp hentry
    have hshows := Reader.shows_of_mem_messages hms hmessage
    exact ⟨hshows.chatId_eq ▸ message.toJson_chatId, message, hshows, rfl⟩
  · simp [Message.toJson_id]

-- Whatever is written for a change, the connection wanted to hear about its chat when the change
-- was announced, the frame says that change, and its entries show that chat only.
theorem told_what_was_asked_for (settings : HubSettings) (steps : List Step)
    (hreader : ∀ s ∈ steps, s.AsksReader) (id : ConnectionId) (m : ChangeMessage) (taken : Bool)
    (hsent : (id, .change m taken) ∈ (started settings).log steps) :
    ∃ before o after d, steps = before ++ .dispatch o :: after ∧
      ((started settings).run before).dispatch? (.dispatch o) = some d ∧ m = d.message id ∧
      m.frame.Carries m ∧ AskedFor ((started settings).run before) id m.change.chatId ∧
      ∃ r : Reader, o.lookup = r.messages ∧ ShowsChat r m := by
  obtain ⟨before, s, after, d, rfl, hd, ho, rfl⟩ := change_mem_log hsent
  obtain ⟨hhub, rfl⟩ := dispatch?_hub hd
  obtain ⟨r, hr⟩ := hreader (.dispatch d.occasion) (by simp)
  refine ⟨before, d.occasion, after, d, rfl, hd, rfl, (d.message id).frame_carries, ?_, r, hr,
    showsChat_of_dispatch? hd hr id⟩
  obtain ⟨sub, hsub, hcovers⟩ :=
    Registry.mem_matching_iff.mp (Dispatch.mem_targets_iff.mpr (Dispatch.listens_of_offers ho))
  rw [AskedFor, hhub]
  exact ⟨sub, hsub, Subscription.covers_iff.mp hcovers⟩

-- Rooms `!a` and `!b` each got a message, and only `!b` is listened to. Whatever it is asked for,
-- the reader answers the message of `!a`, except that it also knows the one of `!b`.
def whispering : List Step :=
  let event (room id : String) : Event :=
    { roomId := room, eventId := id, type := EventType.message, content := .object [] }
  let reader : Reader :=
    { ownUserId := ""
      room := fun _ => .ok (some default)
      event := fun id => .ok (some (if id = "$2" then event "!b" "$2" else event "!a" "$1"))
      memberNames := fun _ => .error .notInitialized
      reactions := fun _ _ => .error .notInitialized }
  let occasion : Occasion :=
    { lookup := reader.messages, now := 0, time := 0, write := fun _ _ => .ok () }
  let rooms : Table RoomSync :=
    .ofList [("!a", { events := [event "!a" "$1"] }),
      ("!b", { events := [event "!b" "$2", event "!b" "$3"] })]
  [.publish (.synced { rooms }), .take, .dispatch occasion, .dispatch occasion, .dispatch occasion,
    .register ⟨1⟩, .subscribe ⟨1⟩ (.chats (.ofList ["!b"])), .dispatch occasion]

theorem whispering_told_what_was_asked_for :
    (∀ s ∈ whispering, s.AsksReader) ∧
    ∃ m, m.entries.isSome = true ∧ (⟨1⟩, .change m true) ∈ (started {}).log whispering ∧
      ∃ before o after d, whispering = before ++ .dispatch o :: after ∧
        ((started {}).run before).dispatch? (.dispatch o) = some d ∧ m = d.message ⟨1⟩ ∧
        m.frame.Carries m ∧ AskedFor ((started {}).run before) ⟨1⟩ m.change.chatId ∧
        ∃ r : Reader, o.lookup = r.messages ∧ ShowsChat r m := by
  have hreader : ∀ s ∈ whispering, s.AsksReader := by
    simp only [whispering, Step.AsksReader, List.forall_mem_cons, true_and, List.not_mem_nil,
      false_imp_iff, implies_true, and_true, and_self]
    exact ⟨_, rfl⟩
  obtain ⟨m, hentries, hlog⟩ : ∃ m : ChangeMessage, m.entries.isSome = true ∧
      (started {}).log whispering = [(⟨1⟩, .change m true)] := ⟨_, rfl, rfl⟩
  have hsent : (⟨1⟩, .change m true) ∈ (started {}).log whispering := by
    rw [hlog]
    exact List.mem_singleton_self _
  exact ⟨hreader, m, hentries, hsent,
    told_what_was_asked_for {} whispering hreader ⟨1⟩ m true hsent⟩

end ChatRelay.Hub

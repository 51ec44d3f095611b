import ChatRelay.Message.Lookup
import ChatRelay.Proofs.Distinct
import ChatRelay.Proofs.Table
import ChatRelay.Proofs.Text

namespace ChatRelay

namespace Event

-- Every message is a variant of the common one.
theorem render?_eq_some {e : Event} {context : ChatContext} {m : Message}
    (h : e.render? context = some m) :
    e.isRedacted = false ∧ e.isEdit = false ∧ m.id = e.eventId ∧ m.chatId = e.roomId := by
  unfold render? at h
  split at h
  · cases h
  · next hshown =>
    simp only [Bool.or_eq_true, not_or, Bool.not_eq_true] at hshown
    obtain ⟨⟨hredacted, hedit⟩, -⟩ := hshown
    refine ⟨hredacted, hedit, ?_⟩
    split at h
    · obtain rfl := Option.some.inj h
      exact ⟨rfl, rfl⟩
    · split at h
      · obtain rfl := Option.some.inj h
        exact ⟨rfl, rfl⟩
      · cases h

-- Whether there is a message of an event. It does not depend on what is known about its chat.
def isShown (e : Event) : Bool :=
  !e.isRedacted && !e.isEdit && EventType.isMessageLike e.effectiveType &&
    (e.effectiveType == EventType.reaction || e.effectiveContent.isObject)

theorem isSome_render? (e : Event) (context : ChatContext) :
    (e.render? context).isSome = e.isShown := by
  unfold render? isShown
  cases e.isRedacted <;> cases e.isEdit <;> cases EventType.isMessageLike e.effectiveType <;>
    cases e.effectiveType == EventType.reaction <;> cases e.effectiveContent.isObject <;> rfl

end Event

namespace Message

theorem toJson_id (m : Message) : m.toJson.stringAt? ["id"] = some m.id := by
  refine Json.stringAt?_mkSome ?_ List.mem_cons_self
  simp only [List.map_cons, List.map_nil]
  decide

theorem toJson_chatId (m : Message) : m.toJson.stringAt? ["chatID"] = some m.chatId := by
  refine Json.stringAt?_mkSome ?_ (List.mem_cons_of_mem _ List.mem_cons_self)
  simp only [List.map_cons, List.map_nil]
  decide

theorem toJson_text (m : Message) : m.toJson.stringAt? ["text"] = some m.text := by
  refine Json.stringAt?_mkSome ?_ (by simp)
  simp only [List.map_cons, List.map_nil]
  decide

end Message

namespace Reader

theorem eventOf?_eq_some {r : Reader} {chatId id : String} {e : Event}
    (h : r.eventOf? chatId id = some e) : r.event id = .ok (some e) ∧ e.roomId = chatId := by
  unfold eventOf? at h
  split at h
  · next found hfound =>
    split at h
    · next hroom =>
      obtain rfl := Option.some.inj h
      exact ⟨hfound, hroom⟩
    · cases h
  · cases h

theorem wanted_eq (ids : List String) : wanted ids = (ids.filterMap Text.nonBlank?).eraseDups := by
  have hgo (xs seen : List String) : wanted.go seen xs = (xs.filter (· ∉ seen)).eraseDups := by
    induction xs generalizing seen with
    | nil => rfl
    | cons x xs ih =>
      unfold wanted.go
      by_cases hx : x ∈ seen
      · rw [if_pos hx, ih, List.filter_cons_of_neg (by simpa using hx)]
      · rw [if_neg hx, ih, List.filter_cons_of_pos (by simpa using hx), List.eraseDups_cons,
          filter_not_mem_cons]
  rw [wanted, hgo]
  simp

theorem mem_wanted {ids : List String} {asked : String} :
    asked ∈ wanted ids ↔ ∃ id ∈ ids, Text.nonBlank? id = some asked := by
  rw [wanted_eq, List.mem_eraseDups, List.mem_filterMap]

-- By induction on the identifiers. A message that was handed out is not looked for again.
theorem handOut_eq (messages : Table Message) (ids : List String) :
    handOut messages ids = (ids.map Text.trim).eraseDups.filterMap messages.get? := by
  induction ids generalizing messages with
  | nil => rfl
  | cons id rest ih =>
    have hrest (t : Table Message)
        (ht : ∀ key, t.get? key = if key = Text.trim id then none else messages.get? key) :
        handOut t rest =
          ((rest.map Text.trim).filter fun key => !key == Text.trim id).eraseDups.filterMap
            messages.get? := by
      rw [ih, ← filter_eraseDups, List.filterMap_filter]
      refine List.filterMap_congr fun key _ => ?_
      rw [ht]
      by_cases heq : key = Text.trim id <;> simp [heq]
    unfold handOut
    rw [List.map_cons, List.eraseDups_cons]
    cases hm : messages.get? (Text.trim id) with
    | some m =>
      rw [List.filterMap_cons_some hm, ← hrest _ (messages.get?_erase (Text.trim id))]
    | none =>
      rw [List.filterMap_cons_none hm]
      refine hrest messages fun key => ?_
      by_cases heq : key = Text.trim id <;> simp [heq, hm]

-- Messages that stand under their own identifiers.
def OwnIds (found : String → Option Message) : Prop := ∀ id m, found id = some m → m.id = id

theorem ownIds_ofList (messages : List Message) :
    OwnIds (Table.get? (.ofList (messages.map fun m => (m.id, m)))) := by
  intro key m hm
  obtain ⟨m', -, heq⟩ := List.mem_map.mp (Table.mem_of_get?_ofList hm)
  obtain ⟨rfl, rfl⟩ := Prod.mk.inj heq
  rfl

-- They come in the order of the identifiers.
theorem OwnIds.sublist {found : String → Option Message} (hown : OwnIds found) (ids : List String) :
    ((ids.filterMap found).map (·.id)).Sublist ids := by
  induction ids with
  | nil => exact .slnil
  | cons id rest ih =>
    cases hm : found id with
    | none =>
      rw [List.filterMap_cons_none hm]
      exact ih.cons _
    | some m =>
      rw [List.filterMap_cons_some hm, List.map_cons, hown id m hm]
      exact ih.cons_cons _

theorem mem_handOut {messages : Table Message} {ids : List String} {m : Message}
    (h : m ∈ handOut messages ids) : ∃ key, messages.get? key = some m := by
  rw [handOut_eq] at h
  obtain ⟨key, -, hkey⟩ := List.mem_filterMap.mp h
  exact ⟨key, hkey⟩

theorem handOut_sublist {messages : Table Message} (hown : OwnIds messages.get?)
    (ids : List String) : ((handOut messages ids).map (·.id)).Sublist (ids.map Text.trim) := by
  rw [handOut_eq]
  exact (hown.sublist _).trans (eraseDups_sublist _)

theorem handOut_nodup {messages : Table Message} (hown : OwnIds messages.get?)
    (ids : List String) : ((handOut messages ids).map (·.id)).Nodup := by
  rw [handOut_eq]
  exact (hown.sublist _).nodup (nodup_eraseDups _)

theorem handOut_eq_nil_iff {messages : Table Message} {ids : List String} :
    handOut messages ids = [] ↔ ∀ id ∈ ids, messages.get? (Text.trim id) = none := by
  rw [handOut_eq, List.filterMap_eq_nil_iff]
  simp only [List.mem_eraseDups, List.forall_mem_map]

-- Only the failure of the room surfaces.
theorem messages_eq_error_iff {r : Reader} {chatId : String} {ids : List String} {e : ReadError} :
    r.messages chatId ids = .error e ↔ r.room chatId = .error e := by
  unfold messages
  cases r.room chatId with
  | error e' => exact ⟨fun h => Except.error.inj h ▸ rfl, fun h => Except.error.inj h ▸ rfl⟩
  | ok room? =>
    refine ⟨fun h => ?_, fun h => nomatch h⟩
    cases room? with
    | none => cases h
    | some room =>
      by_cases hempty : (r.eventsOf chatId ids).isEmpty = true <;> simp only [hempty] at h <;> cases h

-- Nothing is answered if no event has a message that stands under one of the identifiers.
theorem messages_eq_nil_iff {r : Reader} {chatId : String} {ids : List String} {room : Room}
    (hroom : r.room chatId = .ok (some room)) :
    r.messages chatId ids = .ok [] ↔
      ∀ e ∈ r.eventsOf chatId ids, e.isShown = true → e.eventId ∉ ids.map Text.trim := by
  cases hevents : r.eventsOf chatId ids with
  | nil =>
    have hmessages : r.messages chatId ids = .ok [] := by
      unfold messages
      rw [hroom]
      simp only [hevents]
      rfl
    simp [hmessages]
  | cons first rest =>
    let context := r.contextOf room chatId (first :: rest)
    have hmessages : r.messages chatId ids = .ok (handOut (.ofList
        (((first :: rest).filterMap (·.render? context)).map fun m => (m.id, m))) ids) := by
      unfold messages
      rw [hroom]
      simp only [hevents]
      rfl
    rw [hmessages, Except.ok.injEq, handOut_eq_nil_iff]
    simp only [Table.get?_ofList_eq_none_iff, List.mem_map, List.mem_filterMap]
    constructor
    · rintro h e he hshown ⟨id, hid, heq⟩
      rw [← Event.isSome_render? e context] at hshown
      obtain ⟨m, hm⟩ := Option.isSome_iff_exists.mp hshown
      refine h id hid _ ⟨m, ⟨e, he, hm⟩, rfl⟩ ?_
      rw [(Event.render?_eq_some hm).2.2.1, heq]
    · rintro h id hid _ ⟨m, ⟨e, he, hm⟩, rfl⟩ heq
      refine h e he ?_ ⟨id, hid, ?_⟩
      · rw [← Event.isSome_render? e context, hm]
        rfl
      · rw [← heq, (Event.render?_eq_some hm).2.2.1]

-- Two readers find the same messages of a chat if they say the same about the chat and their events
-- go by the same identifiers and look the same.
theorem messages_eq_of_map {r q : Reader} {chatId : String} {ids : List String} {f : Event → Event}
    (hroom : r.room chatId = q.room chatId) (hown : r.ownUserId = q.ownUserId)
    (hmembers : r.memberNames chatId = q.memberNames chatId)
    (hreactions : r.reactions chatId = q.reactions chatId)
    (hid : ∀ e, (f e).eventId = e.eventId)
    (hrender : ∀ e context, (f e).render? context = e.render? context)
    (hevents : r.eventsOf chatId ids = (q.eventsOf chatId ids).map f) :
    r.messages chatId ids = q.messages chatId ids := by
  have hids : ((q.eventsOf chatId ids).map f).map (·.eventId) =
      (q.eventsOf chatId ids).map (·.eventId) := by
    simp only [List.map_map, Function.comp_def, hid]
  have hrendered (context : ChatContext) : ((q.eventsOf chatId ids).map f).filterMap
      (·.render? context) = (q.eventsOf chatId ids).filterMap (·.render? context) := by
    simp only [List.filterMap_map, Function.comp_def, hrender]
  unfold messages contextOf
  simp only [hroom, hown, hmembers, hreactions, hevents, hids, hrendered, List.isEmpty_map]

-- A message that shows an event which the reader answered for this chat.
def Shows (r : Reader) (chatId : String) (m : Message) : Prop :=
  ∃ asked e context, r.event asked = .ok (some e) ∧ e.roomId = chatId ∧
    e.isRedacted = false ∧ e.isEdit = false ∧ e.render? context = some m

theorem messages_eq {r : Reader} {chatId : String} {ids : List String} {ms : List Message}
    (h : r.messages chatId ids = .ok ms) :
    ms = [] ∨ ∃ context, ms = handOut (.ofList
      (((r.eventsOf chatId ids).filterMap (·.render? context)).map fun m => (m.id, m))) ids := by
  unfold messages at h
  cases hroom : r.room chatId with
  | error e =>
    rw [hroom] at h
    cases h
  | ok room? =>
    rw [hroom] at h
    cases room? with
    | none => exact .inl (Except.ok.inj h).symm
    | some room =>
      by_cases hempty : (r.eventsOf chatId ids).isEmpty = true
      · simp only [hempty] at h
        exact .inl (Except.ok.inj h).symm
      · simp only [hempty] at h
        exact .inr ⟨_, (Except.ok.inj h).symm⟩

theorem shows_of_mem_messages {r : Reader} {chatId : String} {ids : List String}
    {ms : List Message} (h : r.messages chatId ids = .ok ms) {m : Message} (hm : m ∈ ms) :
    r.Shows chatId m := by
  rcases messages_eq h with rfl | ⟨context, rfl⟩
  · cases hm
  · obtain ⟨key, hkey⟩ := mem_handOut hm
    obtain ⟨m', hm', heq⟩ := List.mem_map.mp (Table.mem_of_get?_ofList hkey)
    obtain ⟨-, rfl⟩ := Prod.mk.inj heq
    obtain ⟨e, he, hrender⟩ := List.mem_filterMap.mp hm'
    obtain ⟨asked, -, hasked⟩ := List.mem_filterMap.mp he
    obtain ⟨hevent, hroom⟩ := eventOf?_eq_some hasked
    obtain ⟨hredacted, hedit, -⟩ := Event.render?_eq_some hrender
    exact ⟨asked, e, context, hevent, hroom, hredacted, hedit, hrender⟩

theorem Shows.chatId_eq {r : Reader} {chatId : String} {m : Message} (h : r.Shows chatId m) :
    m.chatId = chatId := by
  obtain ⟨asked, e, context, -, rfl, -, -, hrender⟩ := h
  exact (Event.render?_eq_some hrender).2.2.2

theorem messages_sublist {r : Reader} {chatId : String} {ids : List String} {ms : List Message}
    (h : r.messages chatId ids = .ok ms) :
    (ms.map (·.id)).Sublist (ids.map Text.trim) ∧ (ms.map (·.id)).Nodup := by
  rcases messages_eq h with rfl | ⟨context, rfl⟩
  · exact ⟨List.nil_sublist _, List.nodup_nil⟩
  · have hown := ownIds_ofList ((r.eventsOf chatId ids).filterMap (·.render? context))
    exact ⟨handOut_sublist hown ids, handOut_nodup hown ids⟩

-- A lookup of one message finds nothing or that one.
theorem messages_singleton_cases {r : Reader} {chatId id : String} {room? : Option Room}
    (hroom : r.room chatId = .ok room?) (hid : Text.trim id = id) :
    r.messages chatId [id] = .ok [] ∨ ∃ m, r.messages chatId [id] = .ok [m] ∧ m.id = id := by
  have hok : ∃ ms, r.messages chatId [id] = .ok ms := by
    cases h : r.messages chatId [id] with
    | ok ms => exact ⟨ms, rfl⟩
    | error e => cases hroom.symm.trans (messages_eq_error_iff.mp h)
  obtain ⟨ms, hms⟩ := hok
  obtain ⟨hsub, -⟩ := messages_sublist hms
  rw [List.map_cons, List.map_nil, hid] at hsub
  match ms, hms, hsub with
  | [], hms, _ => exact .inl hms
  | [m], hms, hsub => exact .inr ⟨m, hms, List.mem_singleton.mp (hsub.subset List.mem_cons_self)⟩
  | _ :: _ :: _, _, hsub => exact absurd hsub.length_le (by simp)

end Reader

end ChatRelay

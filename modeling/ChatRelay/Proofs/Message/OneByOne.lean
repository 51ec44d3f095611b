import Mathlib.Data.List.Nodup
import ChatRelay.Proofs.Distinct
import ChatRelay.Proofs.Message.Lookup

namespace ChatRelay

-- What a context knows about the sender of an event and the reactions to it is all that its message
-- takes from the two tables.
theorem Event.render?_of_context (e : Event) {c d : ChatContext}
    (haccount : d.accountId = c.accountId) (hown : d.ownUserId = c.ownUserId) :
    e.render? d = (e.render? c).map fun m =>
      { m with
        senderName := (d.memberNames.get? m.senderId).getD m.senderId
        reactions := (d.reactions.get? m.id).getD [] } := by
  unfold render?
  rw [apply_ite (Option.map _), apply_ite (Option.map _), apply_ite (Option.map _)]
  simp only [Option.map_some, Option.map_none, reactionMessage, contentMessage, commonMessage,
    haccount, hown]

theorem Event.reactions_of_render? {e : Event} {context : ChatContext} {m : Message}
    (h : e.render? context = some m) :
    m.reactions = (context.reactions.get? e.eventId).getD [] := by
  have hsame := e.render?_of_context (c := context) (d := context) rfl rfl
  rw [h, Option.map_some] at hsame
  have hreactions := congrArg Message.reactions (Option.some.inj hsame)
  rw [hreactions, (render?_eq_some h).2.2.1]

namespace Reader

theorem wanted_singleton_of_mem {id : String} {ids : List String} (h : id ∈ wanted ids) :
    wanted [id] = [id] := by
  obtain ⟨given, -, hid⟩ := mem_wanted.mp h
  obtain ⟨rfl, hne⟩ := Text.nonBlank?_eq_some_iff.mp hid
  have htrimmed : Text.nonBlank? (Text.trim given) = some (Text.trim given) :=
    Text.nonBlank?_eq_some_iff.mpr ⟨(Text.trim_trim given).symm, hne⟩
  rw [wanted_eq, List.filterMap_cons_some htrimmed]
  rfl

theorem trim_mem_wanted_iff {id : String} {ids : List String} (h : id ∈ ids) :
    Text.trim id ∈ wanted ids ↔ Text.trim id ≠ "" := by
  constructor
  · intro hasked
    obtain ⟨_, -, hid⟩ := mem_wanted.mp hasked
    exact (Text.nonBlank?_eq_some_iff.mp hid).2
  · intro hne
    exact mem_wanted.mpr ⟨id, h, Text.nonBlank?_eq_some_iff.mpr ⟨rfl, hne⟩⟩

theorem nodup_wanted (ids : List String) : (wanted ids).Nodup := by
  rw [wanted_eq]
  exact nodup_eraseDups _

-- Leaving out identifiers by their trimmed forms leaves out those forms.
theorem wanted_filter (p : String → Bool) (ids : List String) :
    wanted (ids.filter fun id => p (Text.trim id)) = (wanted ids).filter p := by
  have hforms : (ids.filter fun id => p (Text.trim id)).map Text.trim =
      (ids.map Text.trim).filter p := by
    rw [List.filter_map]
    rfl
  rw [wanted_eq, wanted_eq, filter_eraseDups, Text.filterMap_nonBlank?, Text.filterMap_nonBlank?,
    hforms, List.filter_filter, List.filter_filter]
  simp only [Bool.and_comm]

-- A reader that knows every event by its own identifier, and says the same of the reactions to an
-- event whichever other events are asked about.
structure Coherent (r : Reader) (chatId : String) : Prop where
  own : ∀ asked e, r.event asked = .ok (some e) → e.id? = some asked
  reactions : ∀ ids, ∀ id ∈ ids,
    ((orEmpty (r.reactions chatId ids)).get? id).getD [] =
      ((orEmpty (r.reactions chatId [id])).get? id).getD []

-- The message that stands under an identifier, with nothing around it.
def messageOf? (r : Reader) (chatId id : String) (room : Room) : Option Message :=
  (r.eventOf? chatId id).bind fun e =>
    if e.eventId = id then e.render? (r.contextOf room chatId [e]) else none

-- The messages that are found for a list, by their identifiers.
def found (r : Reader) (chatId : String) (ids : List String) (room : Room) : Table Message :=
  let events := r.eventsOf chatId ids
  .ofList ((events.filterMap (·.render? (r.contextOf room chatId events))).map fun m => (m.id, m))

variable {r : Reader} {chatId : String} {room : Room} {ids : List String}

theorem messageOf?_eq_some {id : String} {m : Message} :
    r.messageOf? chatId id room = some m ↔
      ∃ e, r.eventOf? chatId id = some e ∧ e.render? (r.contextOf room chatId [e]) = some m ∧
        m.id = id := by
  simp only [messageOf?, Option.bind_eq_some_iff, Option.ite_none_right_eq_some]
  refine exists_congr fun e => and_congr_right fun _ => ?_
  rw [and_comm, and_congr_right_iff]
  intro hrender
  rw [(Event.render?_eq_some hrender).2.2.1]

theorem Coherent.own_eventOf? (hr : r.Coherent chatId) {asked : String} {e : Event}
    (h : r.eventOf? chatId asked = some e) : e.id? = some asked :=
  hr.own asked e (eventOf?_eq_some h).1

-- It makes no difference which other events are rendered.
theorem Coherent.render?_contextOf (hr : r.Coherent chatId) {events : List Event} {e : Event}
    (he : e ∈ events) :
    e.render? (r.contextOf room chatId events) = e.render? (r.contextOf room chatId [e]) := by
  let alone := r.contextOf room chatId [e]
  have hreactions := hr.reactions (events.map (·.eventId)) e.eventId (List.mem_map_of_mem he)
  have hall := e.render?_of_context (c := alone) (d := r.contextOf room chatId events) rfl rfl
  have halone := e.render?_of_context (c := alone) (d := alone) rfl rfl
  rw [hall]
  refine Eq.trans (Option.map_congr fun m hm => ?_) halone.symm
  have hid : m.id = e.eventId := (Event.render?_eq_some hm).2.2.1
  have hsame : ((r.contextOf room chatId events).reactions.get? m.id).getD [] =
      (alone.reactions.get? m.id).getD [] := by
    rw [hid]
    exact hreactions
  rw [hsame]
  rfl

theorem OwnIds.filter_eq {found : String → Option Message} (hown : OwnIds found)
    (hnodup : ids.Nodup) {id : String} (hid : id ∈ ids) :
    (ids.filterMap found).filter (·.id = id) = (found id).toList := by
  have hone : ids.filter (· = id) = [id] := by
    rw [List.filter_eq, List.count_eq_one_of_mem hnodup hid, List.replicate_one]
  have hat (other : String) :
      (found other).filter (·.id = id) = if decide (other = id) = true then found other else none := by
    cases hm : found other with
    | none => simp
    | some m => simp [Option.filter, hown other m hm]
  rw [List.filter_filterMap, List.filterMap_congr fun other _ => hat other, ← List.filterMap_filter,
    hone]
  cases hm : found id with
  | none => rw [List.filterMap_cons_none hm]; rfl
  | some m => rw [List.filterMap_cons_some hm]; rfl

-- What is found for a list is, under each of its identifiers, what is found for that one.
theorem Coherent.get?_found (hr : r.Coherent chatId) {id : String} (hid : Text.trim id = id) :
    (r.found chatId ids room).get? id =
      if id ∈ wanted ids then r.messageOf? chatId id room else none := by
  let context := r.contextOf room chatId (r.eventsOf chatId ids)
  let bindings := ((r.eventsOf chatId ids).filterMap (·.render? context)).map fun m => (m.id, m)
  have hfound {m : Message} (hm : (r.found chatId ids room).get? id = some m) :
      id ∈ wanted ids ∧ r.messageOf? chatId id room = some m := by
    obtain ⟨_, hin, heq⟩ := List.mem_map.mp (Table.mem_of_get?_ofList hm)
    obtain ⟨hmid, rfl⟩ := Prod.mk.inj heq
    obtain ⟨e, he, hrender⟩ := List.mem_filterMap.mp hin
    obtain ⟨asked, hasked, hevent⟩ := List.mem_filterMap.mp he
    -- The event was read under its own identifier, which is trimmed.
    obtain ⟨rfl, -⟩ := Text.nonBlank?_eq_some_iff.mp (hr.own_eventOf? hevent)
    rw [← (Event.render?_eq_some hrender).2.2.1, hmid, hid] at hasked hevent
    rw [hr.render?_contextOf he] at hrender
    exact ⟨hasked, messageOf?_eq_some.mpr ⟨e, hevent, hrender, hmid⟩⟩
  refine Option.ext fun m => ?_
  rw [Option.ite_none_right_eq_some]
  refine ⟨hfound, fun ⟨hasked, hm⟩ => ?_⟩
  obtain ⟨e, hevent, hrender, hmid⟩ := messageOf?_eq_some.mp hm
  have he : e ∈ r.eventsOf chatId ids := List.mem_filterMap.mpr ⟨id, hasked, hevent⟩
  have hin : (id, m) ∈ bindings := by
    rw [← hr.render?_contextOf he] at hrender
    exact List.mem_map.mpr ⟨m, List.mem_filterMap.mpr ⟨e, he, hrender⟩, by rw [hmid]⟩
  cases hget : (r.found chatId ids room).get? id with
  | none => exact absurd rfl (Table.get?_ofList_eq_none_iff.mp hget _ hin)
  | some m' => exact (hfound hget).2.symm.trans hm

theorem Coherent.handOut_found (hr : r.Coherent chatId) (ids : List String) :
    handOut (r.found chatId ids room) ids =
      (wanted ids).filterMap fun id => r.messageOf? chatId id room := by
  rw [handOut_eq, wanted_eq, Text.filterMap_nonBlank?, ← filter_eraseDups, List.filterMap_filter]
  refine List.filterMap_congr fun id hid => ?_
  obtain ⟨given, hgiven, rfl⟩ := List.mem_map.mp (List.mem_eraseDups.mp hid)
  rw [hr.get?_found (Text.trim_trim given)]
  simp only [trim_mem_wanted_iff hgiven, decide_eq_true_eq]

-- The answer is made up of the messages of the single identifiers.
theorem Coherent.messages_eq (hr : r.Coherent chatId) {room? : Option Room}
    (hroom : r.room chatId = .ok room?) (ids : List String) :
    r.messages chatId ids =
      .ok ((wanted ids).filterMap fun id => room?.bind (r.messageOf? chatId id)) := by
  rw [messages, hroom]
  cases room? with
  | none => simp only [Option.bind_none, List.filterMap_none]; rfl
  | some room =>
    simp only [Option.bind_some]
    rw [← hr.handOut_found ids]
    by_cases hempty : (r.eventsOf chatId ids).isEmpty = true
    · have hnone : handOut (r.found chatId ids room) ids = [] := by
        rw [handOut_eq_nil_iff]
        intro id _
        rw [found, List.isEmpty_iff.mp hempty]
        rfl
      rw [hnone]
      simp only [hempty]
      rfl
    · simp only [hempty]
      rfl

end Reader

end ChatRelay

import ChatRelay.Proofs.Message.Failures
import ChatRelay.Proofs.Store.Deletion
import ChatRelay.Proofs.Store.Reactions

namespace ChatRelay.Store

-- A lookup in a store goes through the events in some order, each time maybe in another one.
def IsLookup (s : Store) (lookup : MessageLookup) : Prop :=
  ∀ chatId ids, ∃ events, events.Perm s.events.values ∧
    lookup chatId ids = (s.readerAmong events).messages chatId ids

theorem IsLookup.eq_messages {s : Store} {lookup : MessageLookup} (hlookup : s.IsLookup lookup)
    (hdistinct : s.HasDistinctTimes) : lookup = s.reader.messages := by
  funext chatId ids
  obtain ⟨events, hperm, h⟩ := hlookup chatId ids
  rw [h, readerAmong_eq hdistinct hperm]

theorem getD_reactionsAmong (events : List Event) (roomId : String) {ids : List String} {id : String}
    (hid : id ∈ ids) :
    ((reactionsAmong events roomId ids).get? id).getD [] =
      Reaction.collect (reactionEvents events roomId id) := by
  unfold reactionsAmong
  cases hget : Table.get? _ id with
  | some found =>
    obtain ⟨target, -, htarget⟩ := List.mem_filterMap.mp (Table.mem_of_get?_ofList hget)
    split at htarget
    · cases htarget
    · obtain ⟨rfl, rfl⟩ := Prod.mk.inj (Option.some.inj htarget)
      rfl
  | none =>
    cases hreactions : Reaction.collect (reactionEvents events roomId id) with
    | nil => rfl
    | cons first rest =>
      refine absurd rfl (Table.get?_ofList_eq_none_iff.mp hget (id, first :: rest) ?_)
      exact List.mem_filterMap.mpr ⟨id, hid, by rw [hreactions]⟩

theorem Keyed.coherent_readerAmong {s : Store} (hs : s.Keyed) (events : List Event)
    (chatId : String) : (s.readerAmong events).Coherent chatId where
  own asked e h := hs asked e (Except.ok.inj h)
  reactions ids id hid := by
    have hlist := getD_reactionsAmong events chatId hid
    have hone := getD_reactionsAmong events chatId (List.mem_singleton_self id)
    exact hlist.trans hone.symm

theorem Keyed.coherent_reader {s : Store} (hs : s.Keyed) (chatId : String) :
    s.reader.Coherent chatId :=
  hs.coherent_readerAmong s.events.values chatId

variable {ownUserId : String} {batches : List Batch} {lookup : MessageLookup}

-- What is found under an identifier does not depend on what else is asked for. A list is answered with
-- what is found under each of its identifiers, trimmed and in the order of their first occurrences.
theorem lookup_one_by_one (hdistinct : (ofBatches ownUserId batches).HasDistinctTimes)
    (hlookup : (ofBatches ownUserId batches).IsLookup lookup) (chatId : String) :
    ∃ found : String → List Message, (∀ id, lookup chatId [id] = .ok (found id)) ∧
      ∀ ids, let asked := (ids.filterMap Text.nonBlank?).eraseDups
        lookup chatId ids = .ok (asked.flatMap found) ∧
        ((asked.flatMap found).map (·.id)).Sublist asked ∧
        ((asked.flatMap found).map (·.id)).Nodup ∧
        ∀ id ∈ asked, (asked.flatMap found).filter (·.id = id) = found id := by
  let s := ofBatches ownUserId batches
  have hr : s.reader.Coherent chatId := (keyed_ofBatches ownUserId batches).coherent_reader chatId
  let f id := (s.rooms.get? chatId).bind (s.reader.messageOf? chatId id)
  have hanswer (ids : List String) : lookup chatId ids = .ok ((Reader.wanted ids).filterMap f) := by
    rw [hlookup.eq_messages hdistinct]
    exact hr.messages_eq rfl ids
  have hown : Reader.OwnIds f := by
    intro id m hm
    obtain ⟨room, -, hm⟩ := Option.bind_eq_some_iff.mp hm
    obtain ⟨-, -, -, hid⟩ := Reader.messageOf?_eq_some.mp hm
    exact hid
  refine ⟨fun id => (Reader.wanted [id]).filterMap f, fun id => hanswer [id], fun ids => ?_⟩
  have halone : ∀ id ∈ Reader.wanted ids, (Reader.wanted [id]).filterMap f = (f id).toList := by
    intro id hid
    rw [Reader.wanted_singleton_of_mem hid]
    cases hm : f id with
    | none => rw [List.filterMap_cons_none hm]; rfl
    | some m => rw [List.filterMap_cons_some hm]; rfl
  have hlist : (Reader.wanted ids).flatMap (fun id => (Reader.wanted [id]).filterMap f) =
      (Reader.wanted ids).filterMap f :=
    (List.flatMap_congr halone).trans (List.filterMap_eq_flatMap_toList f _).symm
  have hsublist := hown.sublist (Reader.wanted ids)
  simp only [← Reader.wanted_eq]
  refine ⟨?_, ?_, ?_, fun id hid => ?_⟩
  · rw [hlist, hanswer]
  · rwa [hlist]
  · rw [hlist]
    exact hsublist.nodup (Reader.nodup_wanted ids)
  · rw [hlist, halone id hid, hown.filter_eq (Reader.nodup_wanted ids) hid]

-- A reaction to the message $1.
def plusOne (id sender : String) (time : Int) : Event :=
  { eventId := id, sender, type := EventType.reaction, timestamp := time, relatesTo := some "$1"
    content := .mk [("m.relates_to", .mk [("key", .string "+1")])] }

-- Two messages of the chat !a, and two reactions to the first.
def discussion : Batch :=
  batchOf [written, { written with eventId := "$2", timestamp := 3 }, plusOne "$3" "@x:s" 1,
    plusOne "$4" "@y:s" 2]

-- The lookup goes through the events in the reverse order.
def discussed : MessageLookup :=
  let s := ofBatches "" [discussion]
  (s.readerAmong s.events.values.reverse).messages

theorem discussion_hasDistinctTimes : (ofBatches "" [discussion]).HasDistinctTimes := by
  have hall : (ofBatches "" [discussion]).events.values.Pairwise
      fun a b => a.timestamp ≠ b.timestamp := by decide
  exact fun _ _ => hall.filter _

theorem isLookup_discussed : (ofBatches "" [discussion]).IsLookup discussed :=
  fun _ _ => ⟨_, List.reverse_perm _, rfl⟩

theorem discussed_one_by_one :
    (ofBatches "" [discussion]).HasDistinctTimes ∧ (ofBatches "" [discussion]).IsLookup discussed ∧
      ∃ found : String → List Message,
        discussed "!a" ["$2", " ", "$9", " $1 ", "$2"] = .ok (found "$2" ++ found "$9" ++ found "$1") ∧
          (found "$2").map (·.id) = ["$2"] ∧ found "$9" = [] ∧ (found "$1").map (·.id) = ["$1"] := by
  refine ⟨discussion_hasDistinctTimes, isLookup_discussed, ?_⟩
  obtain ⟨found, hone, hall⟩ := lookup_one_by_one discussion_hasDistinctTimes isLookup_discussed "!a"
  have hasked : (["$2", " ", "$9", " $1 ", "$2"].filterMap Text.nonBlank?).eraseDups =
      ["$2", "$9", "$1"] := by decide
  have hids (id : String) {ids : List String}
      (h : (discussed "!a" [id]).map (List.map (·.id)) = .ok ids) : (found id).map (·.id) = ids := by
    rw [hone] at h
    exact Except.ok.inj h
  refine ⟨found, ?_, hids "$2" (by decide), List.map_eq_nil_iff.mp (hids "$9" (by decide)),
    hids "$1" (by decide)⟩
  rw [(hall _).1, hasked]
  simp

-- Where some of the questions to the store fail, the answer is that to a list without the events that
-- cannot be read, each message without what cannot be read about the chat. It fails as the room does.
theorem lookup_failing (hdistinct : (ofBatches ownUserId batches).HasDistinctTimes)
    (hlookup : (ofBatches ownUserId batches).IsLookup lookup) {events : List Event}
    (hperm : events.Perm (ofBatches ownUserId batches).events.values) (f : Failures) (chatId : String)
    (ids : List String) :
    let answer := (((ofBatches ownUserId batches).readerAmong events).failing f).messages chatId ids
    (∀ e, answer = .error e ↔ f.room = some e) ∧
      (f.room = none → ∃ found,
        lookup chatId (ids.filter fun id => (f.event (Text.trim id)).isNone) = .ok found ∧
          answer = .ok (found.map f.dim)) := by
  let s := ofBatches ownUserId batches
  intro answer
  have hr : s.reader.Coherent chatId := (keyed_ofBatches ownUserId batches).coherent_reader chatId
  have hanswer : answer = (s.reader.failing f).messages chatId ids := by
    simp only [answer, readerAmong_eq hdistinct hperm]
    rfl
  rw [hanswer, hlookup.eq_messages hdistinct]
  refine ⟨fun e => ?_, fun hf => hr.messages_failing rfl hf ids⟩
  rw [Reader.messages_eq_error_iff]
  simp only [Reader.failing]
  cases hf : f.room with
  | none => simp [Outage.guard, reader]
  | some reason => simp [Outage.guard]

-- One of the messages, the members and the reactions cannot be read.
def mostlyOut : Outage where
  memberNames := some .notInitialized
  reactions := some (.query "reactions")
  events := ["$2"]

theorem discussed_mostly_failing :
    let s := ofBatches "" [discussion]
    s.HasDistinctTimes ∧ s.IsLookup discussed ∧ s.events.values.reverse.Perm s.events.values ∧
      mostlyOut.failures.room = none ∧
      ∃ m, discussed "!a" ["$1"] = .ok [m] ∧
        ((s.readerAmong s.events.values.reverse).during mostlyOut).messages "!a" [" $2 ", "$1"] =
          .ok [mostlyOut.failures.dim m] := by
  have hperm := List.reverse_perm (ofBatches "" [discussion]).events.values
  refine ⟨discussion_hasDistinctTimes, isLookup_discussed, hperm, rfl, ?_⟩
  obtain ⟨-, hrest⟩ := lookup_failing discussion_hasDistinctTimes isLookup_discussed hperm
    mostlyOut.failures "!a" [" $2 ", "$1"]
  obtain ⟨found, hfound, hfailing⟩ := hrest rfl
  have hreadable : ([" $2 ", "$1"].filter fun id =>
      (mostlyOut.failures.event (Text.trim id)).isNone) = ["$1"] := by decide
  rw [hreadable] at hfound
  have hone : (discussed "!a" ["$1"]).map List.length = .ok 1 := by decide
  rw [hfound] at hone
  obtain ⟨m, rfl⟩ := List.length_eq_one_iff.mp (Except.ok.inj hone)
  exact ⟨m, hfound, by rw [Reader.during_eq_failing, hfailing]; rfl⟩

end ChatRelay.Store

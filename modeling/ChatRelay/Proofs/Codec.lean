import ChatRelay.Message.Render
import ChatRelay.Proofs.Json.Record
import ChatRelay.Sync.Codec

namespace ChatRelay

open Json (Fields)

theorem LocalContent.ofJson?_toJson (c : LocalContent) : ofJson? c.toJson = some c := by
  obtain ⟨fields, hfields, hget⟩ := Json.fields?_mkSome layout (v := c.toJson) rfl (by simp)
  simp only [List.forall_mem_singleton] at hget
  refine Json.bind_of_eq_some hfields ?_
  refine Json.bind_of_eq_some (Fields.optional_string hget) ?_
  rfl

namespace Event

-- Numbers have 64 bits, and null does not stand where it would be read as no value.
structure IsWritable (e : Event) : Prop where
  rowId : Json.IsSigned64 e.rowId
  timelineRowId : Json.IsSigned64 e.timelineRowId
  timestamp : Json.IsSigned64 e.timestamp
  decrypted : e.decrypted ≠ some .null

theorem isWritable_of_ofJson? {v : Json} {e : Event} (h : ofJson? v = some e) : e.IsWritable := by
  unfold ofJson? at h
  obtain ⟨fields, -, h⟩ := Option.bind_eq_some_iff.mp h
  obtain ⟨rowId, hrowId, h⟩ := Option.bind_eq_some_iff.mp h
  obtain ⟨timelineRowId, htimelineRowId, h⟩ := Option.bind_eq_some_iff.mp h
  obtain ⟨roomId, -, h⟩ := Option.bind_eq_some_iff.mp h
  obtain ⟨eventId, -, h⟩ := Option.bind_eq_some_iff.mp h
  obtain ⟨sender, -, h⟩ := Option.bind_eq_some_iff.mp h
  obtain ⟨type, -, h⟩ := Option.bind_eq_some_iff.mp h
  obtain ⟨stateKey, -, h⟩ := Option.bind_eq_some_iff.mp h
  obtain ⟨timestamp, htimestamp, h⟩ := Option.bind_eq_some_iff.mp h
  obtain ⟨content, -, h⟩ := Option.bind_eq_some_iff.mp h
  obtain ⟨decrypted, hdecrypted, h⟩ := Option.bind_eq_some_iff.mp h
  obtain ⟨decryptedType, -, h⟩ := Option.bind_eq_some_iff.mp h
  obtain ⟨redactedBy, -, h⟩ := Option.bind_eq_some_iff.mp h
  obtain ⟨relatesTo, -, h⟩ := Option.bind_eq_some_iff.mp h
  obtain ⟨relationType, -, h⟩ := Option.bind_eq_some_iff.mp h
  obtain ⟨localContent, -, h⟩ := Option.bind_eq_some_iff.mp h
  obtain rfl := Option.some.inj h
  refine ⟨Fields.isSigned64_of_withDefault hrowId, Fields.isSigned64_of_withDefault htimelineRowId,
    Fields.isSigned64_of_withDefault htimestamp, fun hnull => ?_⟩
  obtain rfl : decrypted = some .null := hnull
  exact Fields.ne_null_of_optional hdecrypted rfl

theorem ofJson?_toJson {e : Event} (h : e.IsWritable) : ofJson? e.toJson = some e := by
  obtain ⟨fields, hfields, hget⟩ := Json.fields?_mkSome layout (v := e.toJson) rfl (by simp)
  simp only [List.forall_mem_cons] at hget
  obtain ⟨hrowId, htimelineRowId, hroomId, heventId, hsender, htype, hstateKey, htimestamp, hcontent,
    hdecrypted, hdecryptedType, hredactedBy, hrelatesTo, hrelationType, hlocalContent, -⟩ := hget
  have hlocal : Fields.optional fields "local_content" LocalContent.ofJson? = some e.localContent :=
    Fields.optional_of hlocalContent fun c _ => ⟨nofun, c.ofJson?_toJson⟩
  refine Json.bind_of_eq_some hfields ?_
  refine Json.bind_of_eq_some (Fields.withDefault_of hrowId (Json.signed?_int h.rowId)) ?_
  refine Json.bind_of_eq_some
    (Fields.withDefault_of htimelineRowId (Json.signed?_int h.timelineRowId)) ?_
  refine Json.bind_of_eq_some (Fields.withDefault_string hroomId) ?_
  refine Json.bind_of_eq_some (Fields.withDefault_string heventId) ?_
  refine Json.bind_of_eq_some (Fields.withDefault_string hsender) ?_
  refine Json.bind_of_eq_some (Fields.withDefault_string htype) ?_
  refine Json.bind_of_eq_some (Fields.optional_string hstateKey) ?_
  refine Json.bind_of_eq_some (Fields.withDefault_of htimestamp (Json.signed?_int h.timestamp)) ?_
  refine Json.bind_of_eq_some (Fields.withDefault_of hcontent (x := e.content) rfl) ?_
  refine Json.bind_of_eq_some (Fields.optional_value hdecrypted h.decrypted) ?_
  refine Json.bind_of_eq_some (Fields.optional_string hdecryptedType) ?_
  refine Json.bind_of_eq_some (Fields.optional_string hredactedBy) ?_
  refine Json.bind_of_eq_some (Fields.optional_string hrelatesTo) ?_
  refine Json.bind_of_eq_some (Fields.optional_string hrelationType) ?_
  refine Json.bind_of_eq_some hlocal ?_
  rfl

end Event

namespace RoomSync

structure IsWritable (r : RoomSync) : Prop where
  metadata : r.metadata ≠ some .null
  events : ∀ e ∈ r.events, e.IsWritable

theorem isWritable_of_ofJson? {v : Json} {r : RoomSync} (h : ofJson? v = some r) :
    r.IsWritable := by
  unfold ofJson? at h
  obtain ⟨fields, -, h⟩ := Option.bind_eq_some_iff.mp h
  obtain ⟨metadata, hmetadata, h⟩ := Option.bind_eq_some_iff.mp h
  obtain ⟨timeline, -, h⟩ := Option.bind_eq_some_iff.mp h
  obtain ⟨state, -, h⟩ := Option.bind_eq_some_iff.mp h
  obtain ⟨accountData, -, h⟩ := Option.bind_eq_some_iff.mp h
  obtain ⟨events, hevents, h⟩ := Option.bind_eq_some_iff.mp h
  obtain rfl := Option.some.inj h
  refine ⟨fun hnull => ?_, fun e he => ?_⟩
  · obtain rfl : metadata = some .null := hnull
    exact Fields.ne_null_of_optional hmetadata rfl
  · obtain ⟨item, hitem⟩ := Fields.exists_of_mem_list hevents he
    exact Event.isWritable_of_ofJson? hitem

theorem ofJson?_toJson {r : RoomSync} (h : r.IsWritable) : ofJson? r.toJson = some r := by
  obtain ⟨fields, hfields, hget⟩ := Json.fields?_mkSome layout (v := r.toJson) rfl (by simp)
  simp only [List.forall_mem_cons] at hget
  obtain ⟨hmetadata, htimeline, hstate, haccountData, hevents, -⟩ := hget
  have hitems : (Json.array r.timeline).array? = some r.timeline := rfl
  have hlist : ∀ e ∈ r.events, Event.ofJson? e.toJson = some e :=
    fun e he => Event.ofJson?_toJson (h.events e he)
  refine Json.bind_of_eq_some hfields ?_
  refine Json.bind_of_eq_some (Fields.optional_value hmetadata h.metadata) ?_
  refine Json.bind_of_eq_some
    (Fields.withDefault_of_left_out htimeline List.isEmpty_iff.mp hitems) ?_
  refine Json.bind_of_eq_some (Fields.withDefault_table hstate) ?_
  refine Json.bind_of_eq_some (Fields.withDefault_table haccountData) ?_
  refine Json.bind_of_eq_some (Fields.withDefault_list hevents hlist) ?_
  rfl

end RoomSync

namespace Batch

structure IsWritable (b : Batch) : Prop where
  rooms : ∀ e ∈ b.rooms.entries, e.2.IsWritable

theorem isWritable_of_ofJson? {v : Json} {b : Batch} (h : ofJson? v = some b) :
    b.IsWritable := by
  unfold ofJson? at h
  obtain ⟨fields, -, h⟩ := Option.bind_eq_some_iff.mp h
  obtain ⟨rooms, hrooms, h⟩ := Option.bind_eq_some_iff.mp h
  obtain ⟨leftRooms, -, h⟩ := Option.bind_eq_some_iff.mp h
  obtain rfl := Option.some.inj h
  refine ⟨fun e he => ?_⟩
  obtain ⟨member, hmember⟩ := Fields.exists_of_mem_table hrooms he
  exact RoomSync.isWritable_of_ofJson? hmember

theorem ofJson?_toJson {b : Batch} (h : b.IsWritable) : ofJson? b.toJson = some b := by
  obtain ⟨fields, hfields, hget⟩ :=
    Json.fields?_mkSome layout (v := b.toJson) (Json.mk_eq_mkSome _) (by simp)
  simp only [List.map_cons, List.map_nil, List.forall_mem_cons] at hget
  obtain ⟨hrooms, hleftRooms, -⟩ := hget
  have htable : Json.tableOf RoomSync.ofJson? (.ofTable (b.rooms.map fun _ r => r.toJson)) =
      some b.rooms :=
    Json.tableOf_ofTable_map fun e he => RoomSync.ofJson?_toJson (h.rooms e he)
  refine Json.bind_of_eq_some hfields ?_
  refine Json.bind_of_eq_some (Fields.withDefault_of hrooms htable) ?_
  refine Json.bind_of_eq_some
    (Fields.withDefault_of hleftRooms (Json.strings?_strings b.leftRooms)) ?_
  rfl

end Batch

theorem MessageType.ofJson?_name (t : MessageType) : ofJson? (.string t.name) = some t := by
  cases t <;> decide +kernel

namespace PixelSize

structure IsWritable (s : PixelSize) : Prop where
  width : Json.IsUnsigned64 s.width
  height : Json.IsUnsigned64 s.height

theorem isWritable_of_ofJson? {v : Json} {s : PixelSize} (h : ofJson? v = some s) :
    s.IsWritable := by
  unfold ofJson? at h
  obtain ⟨fields, -, h⟩ := Option.bind_eq_some_iff.mp h
  obtain ⟨width, hwidth, h⟩ := Option.bind_eq_some_iff.mp h
  obtain ⟨height, hheight, h⟩ := Option.bind_eq_some_iff.mp h
  obtain rfl := Option.some.inj h
  exact ⟨Fields.isUnsigned64_of_required hwidth, Fields.isUnsigned64_of_required hheight⟩

theorem ofJson?_toJson {s : PixelSize} (h : s.IsWritable) : ofJson? s.toJson = some s := by
  obtain ⟨fields, hfields, hget⟩ :=
    Json.fields?_mkSome layout (v := s.toJson) (Json.mk_eq_mkSome _) (by simp)
  simp only [List.map_cons, List.map_nil, List.forall_mem_cons] at hget
  obtain ⟨hwidth, hheight, -⟩ := hget
  refine Json.bind_of_eq_some hfields ?_
  refine Json.bind_of_eq_some (Fields.required_of hwidth (Json.unsigned?_nat h.width)) ?_
  refine Json.bind_of_eq_some (Fields.required_of hheight (Json.unsigned?_nat h.height)) ?_
  rfl

end PixelSize

namespace Attachment

structure IsWritable (a : Attachment) : Prop where
  fileSize : ∀ n, a.fileSize = some n → Json.IsUnsigned64 n
  size : ∀ s, a.size = some s → s.IsWritable

theorem isWritable_of_ofJson? {v : Json} {a : Attachment} (h : ofJson? v = some a) :
    a.IsWritable := by
  unfold ofJson? at h
  obtain ⟨fields, -, h⟩ := Option.bind_eq_some_iff.mp h
  obtain ⟨id, -, h⟩ := Option.bind_eq_some_iff.mp h
  obtain ⟨type, -, h⟩ := Option.bind_eq_some_iff.mp h
  obtain ⟨sourceUrl, -, h⟩ := Option.bind_eq_some_iff.mp h
  obtain ⟨fileName, -, h⟩ := Option.bind_eq_some_iff.mp h
  obtain ⟨mimeType, -, h⟩ := Option.bind_eq_some_iff.mp h
  obtain ⟨fileSize, hfileSize, h⟩ := Option.bind_eq_some_iff.mp h
  obtain ⟨size, hsize, h⟩ := Option.bind_eq_some_iff.mp h
  obtain ⟨duration, -, h⟩ := Option.bind_eq_some_iff.mp h
  obtain ⟨posterImage, -, h⟩ := Option.bind_eq_some_iff.mp h
  obtain ⟨isGif, -, h⟩ := Option.bind_eq_some_iff.mp h
  obtain ⟨isSticker, -, h⟩ := Option.bind_eq_some_iff.mp h
  obtain rfl := Option.some.inj h
  refine ⟨fun n hn => ?_, fun s hs => ?_⟩
  · obtain rfl : fileSize = some n := hn
    obtain ⟨w, -, hw⟩ := Fields.exists_of_optional hfileSize
    exact Json.isUnsigned64_of_unsigned? hw
  · obtain rfl : size = some s := hs
    obtain ⟨w, -, hw⟩ := Fields.exists_of_optional hsize
    exact PixelSize.isWritable_of_ofJson? hw

theorem ofJson?_toJson {a : Attachment} (h : a.IsWritable) : ofJson? a.toJson = some a := by
  obtain ⟨fields, hfields, hget⟩ := Json.fields?_mkSome layout (v := a.toJson) rfl (by simp)
  simp only [List.forall_mem_cons] at hget
  obtain ⟨hid, htype, hsourceUrl, hfileName, hmimeType, hfileSize, hsize, hduration, hposterImage,
    hisGif, hisSticker, -⟩ := hget
  have hbytes : Fields.optional fields "fileSize" Json.unsigned? = some a.fileSize :=
    Fields.optional_of hfileSize fun n hn => ⟨nofun, Json.unsigned?_nat (h.fileSize n hn)⟩
  have hpixels : Fields.optional fields "size" PixelSize.ofJson? = some a.size :=
    Fields.optional_of hsize fun s hs => ⟨nofun, PixelSize.ofJson?_toJson (h.size s hs)⟩
  have hseconds : Fields.optional fields "duration" Json.real? = some a.duration :=
    Fields.optional_of hduration fun _ _ => ⟨nofun, rfl⟩
  refine Json.bind_of_eq_some hfields ?_
  refine Json.bind_of_eq_some (Fields.required_string hid) ?_
  refine Json.bind_of_eq_some (Fields.required_string htype) ?_
  refine Json.bind_of_eq_some (Fields.required_string hsourceUrl) ?_
  refine Json.bind_of_eq_some (Fields.optional_string hfileName) ?_
  refine Json.bind_of_eq_some (Fields.optional_string hmimeType) ?_
  refine Json.bind_of_eq_some hbytes ?_
  refine Json.bind_of_eq_some hpixels ?_
  refine Json.bind_of_eq_some hseconds ?_
  refine Json.bind_of_eq_some (Fields.optional_string hposterImage) ?_
  refine Json.bind_of_eq_some (Fields.withDefault_flag hisGif) ?_
  refine Json.bind_of_eq_some (Fields.withDefault_flag hisSticker) ?_
  rfl

end Attachment

theorem Reaction.ofJson?_toJson (r : Reaction) : ofJson? r.toJson = some r := by
  obtain ⟨fields, hfields, hget⟩ :=
    Json.fields?_mkSome layout (v := r.toJson) (Json.mk_eq_mkSome _) (by simp)
  simp only [List.map_cons, List.map_nil, List.forall_mem_cons] at hget
  obtain ⟨hid, hkey, hparticipantId, hemoji, -⟩ := hget
  refine Json.bind_of_eq_some hfields ?_
  refine Json.bind_of_eq_some (Fields.required_string hid) ?_
  refine Json.bind_of_eq_some (Fields.required_string hkey) ?_
  refine Json.bind_of_eq_some (Fields.required_string hparticipantId) ?_
  refine Json.bind_of_eq_some (Fields.required_bool hemoji) ?_
  rfl

namespace Message

structure IsWritable (m : Message) : Prop where
  attachments : ∀ a ∈ m.attachments, a.IsWritable

theorem isWritable_of_ofJson? {v : Json} {m : Message} (h : ofJson? v = some m) :
    m.IsWritable := by
  unfold ofJson? at h
  obtain ⟨fields, -, h⟩ := Option.bind_eq_some_iff.mp h
  obtain ⟨id, -, h⟩ := Option.bind_eq_some_iff.mp h
  obtain ⟨chatId, -, h⟩ := Option.bind_eq_some_iff.mp h
  obtain ⟨accountId, -, h⟩ := Option.bind_eq_some_iff.mp h
  obtain ⟨senderId, -, h⟩ := Option.bind_eq_some_iff.mp h
  obtain ⟨senderName, -, h⟩ := Option.bind_eq_some_iff.mp h
  obtain ⟨timestamp, -, h⟩ := Option.bind_eq_some_iff.mp h
  obtain ⟨sortKey, -, h⟩ := Option.bind_eq_some_iff.mp h
  obtain ⟨isSender, -, h⟩ := Option.bind_eq_some_iff.mp h
  obtain ⟨type, -, h⟩ := Option.bind_eq_some_iff.mp h
  obtain ⟨text, -, h⟩ := Option.bind_eq_some_iff.mp h
  obtain ⟨linkedMessageId, -, h⟩ := Option.bind_eq_some_iff.mp h
  obtain ⟨attachments, hattachments, h⟩ := Option.bind_eq_some_iff.mp h
  obtain ⟨reactions, -, h⟩ := Option.bind_eq_some_iff.mp h
  obtain rfl := Option.some.inj h
  refine ⟨fun a ha => ?_⟩
  obtain ⟨item, hitem⟩ := Fields.exists_of_mem_list hattachments ha
  exact Attachment.isWritable_of_ofJson? hitem

theorem ofJson?_toJson {m : Message} (h : m.IsWritable) : ofJson? m.toJson = some m := by
  obtain ⟨fields, hfields, hget⟩ := Json.fields?_mkSome layout (v := m.toJson) rfl (by simp)
  simp only [List.forall_mem_cons] at hget
  obtain ⟨hid, hchatId, haccountId, hsenderId, hsenderName, htimestamp, hsortKey, hisSender, htype,
    htext, hlinkedMessageId, hattachments, hreactions, -⟩ := hget
  have hmedia : ∀ a ∈ m.attachments, Attachment.ofJson? a.toJson = some a :=
    fun a ha => Attachment.ofJson?_toJson (h.attachments a ha)
  refine Json.bind_of_eq_some hfields ?_
  refine Json.bind_of_eq_some (Fields.required_string hid) ?_
  refine Json.bind_of_eq_some (Fields.required_string hchatId) ?_
  refine Json.bind_of_eq_some (Fields.required_string haccountId) ?_
  refine Json.bind_of_eq_some (Fields.required_string hsenderId) ?_
  refine Json.bind_of_eq_some (Fields.required_string hsenderName) ?_
  refine Json.bind_of_eq_some (Fields.required_string htimestamp) ?_
  refine Json.bind_of_eq_some (Fields.required_string hsortKey) ?_
  refine Json.bind_of_eq_some (Fields.required_bool hisSender) ?_
  refine Json.bind_of_eq_some (Fields.required_of htype (MessageType.ofJson?_name m.type)) ?_
  refine Json.bind_of_eq_some (Fields.required_string htext) ?_
  refine Json.bind_of_eq_some (Fields.optional_string hlinkedMessageId) ?_
  refine Json.bind_of_eq_some (Fields.withDefault_list hattachments hmedia) ?_
  refine Json.bind_of_eq_some
    (Fields.withDefault_list hreactions fun r _ => r.ofJson?_toJson) ?_
  rfl

end Message

namespace Event

-- The sizes of media are those that the content states, or zero.
theorem isWritable_of_attachment? {kind : ContentKind} {content : Json} {a : Attachment}
    (h : attachment? kind content = some a) : a.IsWritable := by
  have hstated {path : List String} {v : Json} {n : Nat} (hn : v.unsignedAt? path = some n) :
      Json.IsUnsigned64 n := by
    obtain ⟨w, -, hw⟩ := Option.bind_eq_some_iff.mp hn
    exact Json.isUnsigned64_of_unsigned? hw
  have hside (path : List String) (v : Json) : Json.IsUnsigned64 ((v.unsignedAt? path).getD 0) := by
    cases hn : v.unsignedAt? path with
    | none => exact Json.isUnsigned64_zero
    | some n => exact hstated hn
  obtain ⟨type, -, rfl⟩ := Option.map_eq_some_iff.mp h
  refine ⟨fun n hn => hstated hn, fun s hs => ?_⟩
  simp only at hs
  split at hs
  · cases hs
  · obtain rfl := Option.some.inj hs
    exact ⟨hside _ _, hside _ _⟩

theorem isWritable_of_render? {e : Event} {context : ChatContext} {m : Message}
    (h : e.render? context = some m) : m.IsWritable := by
  unfold render? at h
  split at h
  · cases h
  · split at h
    · obtain rfl := Option.some.inj h
      exact ⟨fun a ha => nomatch ha⟩
    · split at h
      · obtain rfl := Option.some.inj h
        exact ⟨fun a ha => isWritable_of_attachment? (Option.mem_toList.mp ha)⟩
      · cases h

end Event

-- In whichever form a value was sent, with fields named or in order, left out or null: once it is read,
-- writing and reading it again is no change. A message that was rendered need not have been read before.
theorem data_model_read_back :
    Json.ReadsBack Batch.ofJson? Batch.toJson Batch.IsWritable ∧
    Json.ReadsBack RoomSync.ofJson? RoomSync.toJson RoomSync.IsWritable ∧
    Json.ReadsBack Event.ofJson? Event.toJson Event.IsWritable ∧
    Json.ReadsBack LocalContent.ofJson? LocalContent.toJson (fun _ => True) ∧
    Json.ReadsBack Message.ofJson? Message.toJson Message.IsWritable ∧
    Json.ReadsBack Attachment.ofJson? Attachment.toJson Attachment.IsWritable ∧
    Json.ReadsBack PixelSize.ofJson? PixelSize.toJson PixelSize.IsWritable ∧
    Json.ReadsBack Reaction.ofJson? Reaction.toJson (fun _ => True) ∧
    ∀ (e : Event) (context : ChatContext) (m : Message),
      e.render? context = some m → Message.ofJson? m.toJson = some m := by
  refine ⟨.of_writable Batch.isWritable_of_ofJson? Batch.ofJson?_toJson,
    .of_writable RoomSync.isWritable_of_ofJson? RoomSync.ofJson?_toJson,
    .of_writable Event.isWritable_of_ofJson? Event.ofJson?_toJson,
    .of_writable (fun _ => trivial) fun _ => LocalContent.ofJson?_toJson _,
    .of_writable Message.isWritable_of_ofJson? Message.ofJson?_toJson,
    .of_writable Attachment.isWritable_of_ofJson? Attachment.ofJson?_toJson,
    .of_writable PixelSize.isWritable_of_ofJson? PixelSize.ofJson?_toJson,
    .of_writable (fun _ => trivial) fun _ => Reaction.ofJson?_toJson _,
    fun e context m h => Message.ofJson?_toJson (Event.isWritable_of_render? h)⟩

-- Records as arrays of their fields, with fields missing at the end and null for what is not there.
def positionalEvent : Json :=
  .array [.int (-7), .int Json.least64, .string "!a", .string "$1", .string "@u", .string "m.sticker",
    .null, .int 5, .null, .null, .null, .null, .null, .null, .array []]

def positionalBatch : Json :=
  .array [.object [("!a", .array [.null, .array [], .object [("k", .null)], .object [],
    .array [positionalEvent, .object [("decrypted", .null)]]])]]

def positionalAttachment : Json :=
  .array [.string "x", .string "img", .string "x", .null, .null, .int Json.greatestUnsigned64,
    .array [.nat 3, .nat 4], .int 2, .null]

def positionalMessage : Json :=
  .array [.string "$1", .string "!a", .string "", .string "@u", .string "U", .string "", .string "1",
    .bool true, .object [("IMAGE", .null)], .string "", .null, .array [positionalAttachment],
    .array [.array [.string "@u:+", .string "+", .string "@u", .bool true]]]

def sticker : Event where
  eventId := "$1"
  type := EventType.sticker
  timestamp := 1000
  content := .object [("info", .object [("duration", .nat 1500), ("h", .nat 4), ("size", .nat 9)]),
    ("url", .string "mxc://x")]

theorem positional_read_back :
    (∃ e, Event.ofJson? positionalEvent = some e ∧ Event.ofJson? e.toJson = some e) ∧
    (∃ b, Batch.ofJson? positionalBatch = some b ∧ Batch.ofJson? b.toJson = some b) ∧
    (∃ a, Attachment.ofJson? positionalAttachment = some a ∧ Attachment.ofJson? a.toJson = some a) ∧
    (∃ m, Message.ofJson? positionalMessage = some m ∧ Message.ofJson? m.toJson = some m) ∧
    ∃ m, sticker.render? default = some m ∧ Message.ofJson? m.toJson = some m := by
  obtain ⟨hbatch, -, hevent, -, hmessage, hattachment, -, -, hrender⟩ := data_model_read_back
  obtain ⟨e, he⟩ : ∃ e, Event.ofJson? positionalEvent = some e :=
    Option.isSome_iff_exists.mp (by decide +kernel)
  obtain ⟨b, hb⟩ : ∃ b, Batch.ofJson? positionalBatch = some b :=
    Option.isSome_iff_exists.mp (by decide +kernel)
  obtain ⟨a, ha⟩ : ∃ a, Attachment.ofJson? positionalAttachment = some a :=
    Option.isSome_iff_exists.mp (by decide +kernel)
  obtain ⟨m, hm⟩ : ∃ m, Message.ofJson? positionalMessage = some m :=
    Option.isSome_iff_exists.mp (by decide +kernel)
  obtain ⟨m', hm'⟩ : ∃ m, sticker.render? default = some m :=
    Option.isSome_iff_exists.mp (by decide +kernel)
  exact ⟨⟨e, he, hevent.again _ e he⟩, ⟨b, hb, hbatch.again _ b hb⟩,
    ⟨a, ha, hattachment.again _ a ha⟩, ⟨m, hm, hmessage.again _ m hm⟩,
    m', hm', hrender sticker default m' hm'⟩

end ChatRelay

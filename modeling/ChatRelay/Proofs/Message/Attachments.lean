import ChatRelay.Message.Render

namespace ChatRelay

-- What is attached to a message of a type; to a message of any other type nothing is.
def MessageType.mediaType? : MessageType → Option String
  | image | sticker => some "img"
  | video => some "video"
  | audio => some "audio"
  | file => some "unknown"
  | text | notice | location | reaction => none

-- A message has one attachment, and the right one, if its type is one of media, and none otherwise.
structure Message.AttachmentsFit (m : Message) : Prop where
  types : m.attachments.map (·.type) = m.type.mediaType?.toList
  sticker : ∀ a ∈ m.attachments, a.isSticker = true ↔ m.type = .sticker
  gif : ∀ a ∈ m.attachments, a.isGif = true → m.type = .image

namespace Event

variable {e : Event} {context : ChatContext} {m : Message}

namespace ContentKind

theorem ofName_eq_sticker_iff {name : String} :
    ofName name = sticker ↔ name = EventType.sticker := by
  unfold ofName
  constructor
  · intro h
    repeat' split at h
    all_goals first | assumption | cases h
  · rintro rfl
    decide

theorem mediaType?_messageType {kind : ContentKind} (h : kind ≠ sticker) :
    kind.messageType.mediaType? = kind.attachmentType? := by
  cases kind with
  | sticker => exact absurd rfl h
  | _ => rfl

theorem messageType_ne_sticker (kind : ContentKind) : kind.messageType ≠ .sticker := by
  cases kind <;> decide

end ContentKind

-- The kind that an event's attachment goes by.
def contentKind (e : Event) : ContentKind :=
  if e.effectiveType == EventType.sticker then .sticker
  else .ofName ((e.effectiveContent.stringAt? ["msgtype"]).getD "")

theorem attachments_contentMessage (e : Event) (context : ChatContext) :
    (e.contentMessage context).attachments =
      (attachment? e.contentKind e.effectiveContent).toList := rfl

theorem type_contentMessage_of_ne (h : e.effectiveType ≠ EventType.sticker) :
    (e.contentMessage context).type = e.contentKind.messageType := by
  simp [contentMessage, contentKind, h]

theorem attachments_fit_of_kind {kind : ContentKind} {content : Json}
    (hattachments : m.attachments = (attachment? kind content).toList)
    (hmedia : m.type.mediaType? = kind.attachmentType?)
    (hsticker : m.type = .sticker ↔ kind = .sticker) (himage : kind = .image → m.type = .image) :
    m.AttachmentsFit := by
  have hflags : ∀ a ∈ m.attachments,
      a.isSticker = (kind == .sticker) ∧ (a.isGif = true → kind = .image) := by
    intro a ha
    rw [hattachments, Option.mem_toList] at ha
    obtain ⟨type, -, rfl⟩ := Option.map_eq_some_iff.mp ha
    refine ⟨rfl, fun hgif => ?_⟩
    simp only [Bool.and_eq_true, beq_iff_eq] at hgif
    exact hgif.1
  refine ⟨?_, fun a ha => ?_, fun a ha hgif => himage ((hflags a ha).2 hgif)⟩
  · rw [hattachments, hmedia, attachment?]
    cases kind.attachmentType? <;> rfl
  · rw [(hflags a ha).1, beq_iff_eq, hsticker]

theorem exists_attachment_sticker (content : Json) :
    ∃ a, (attachment? .sticker content).toList = [a] ∧ a.type = "img" ∧ a.isSticker = true ∧
      a.isGif = false :=
  ⟨_, rfl, rfl, rfl, rfl⟩

-- The message of a message or a sticker is made from its content, that of a reaction is not.
theorem render?_cases (h : e.render? context = some m) :
    (e.effectiveType = EventType.reaction ∧ m = e.reactionMessage context) ∨
      (e.effectiveType = EventType.sticker ∨ e.effectiveType = EventType.message) ∧
        m = e.contentMessage context := by
  unfold render? at h
  split at h
  · cases h
  · next hlike =>
    split at h
    · next hreaction => exact .inl ⟨beq_iff_eq.mp hreaction, (Option.some.inj h).symm⟩
    · next hother =>
      split at h
      · refine .inr ⟨?_, (Option.some.inj h).symm⟩
        simp only [EventType.isMessageLike, Bool.or_eq_true, Bool.not_eq_true', beq_iff_eq, not_or,
          Bool.not_eq_false] at hlike hother
        exact (hlike.2.resolve_right hother).symm
      · cases h

-- A message whose content calls itself a sticker, as only the type of an event can.
def SaysSticker (e : Event) : Prop :=
  e.effectiveType = EventType.message ∧ e.effectiveContent.stringAt? ["msgtype"] = some "m.sticker"

instance (e : Event) : Decidable e.SaysSticker := inferInstanceAs (Decidable (_ ∧ _))

theorem saysSticker_iff (h : e.effectiveType = EventType.message) :
    e.SaysSticker ↔ e.contentKind = .sticker := by
  have hother : ¬EventType.message = EventType.sticker := by decide
  rw [SaysSticker, and_iff_right h, contentKind, h, beq_eq_false_iff_ne.mpr hother, if_neg nofun,
    ContentKind.ofName_eq_sticker_iff]
  cases e.effectiveContent.stringAt? ["msgtype"] <;> simp [EventType.sticker]

theorem attachments_fit_contentMessage
    (h : e.contentKind = .sticker → e.effectiveType = EventType.sticker) :
    (e.contentMessage context).AttachmentsFit := by
  have hattachments := e.attachments_contentMessage context
  by_cases hsticker : e.effectiveType = EventType.sticker
  · have htype : (e.contentMessage context).type = .sticker := by simp [contentMessage, hsticker]
    have hkind : e.contentKind = .sticker := by simp [contentKind, hsticker]
    rw [hkind] at hattachments
    refine attachments_fit_of_kind hattachments ?_ (iff_of_true htype rfl) nofun
    rw [htype]
    rfl
  · have htype : (e.contentMessage context).type = e.contentKind.messageType :=
      type_contentMessage_of_ne hsticker
    have hkind := mt h hsticker
    refine attachments_fit_of_kind hattachments ?_ ?_ fun himage => ?_
    · rw [htype, ContentKind.mediaType?_messageType hkind]
    · rw [htype]
      exact iff_of_false e.contentKind.messageType_ne_sticker hkind
    · rw [htype, himage]
      rfl

-- The type of a message and its attachments agree exactly if its content does not call itself a
-- sticker where the event is none. If it does, the message is a text, and a sticker is attached to it.
theorem attachments_fit_iff (h : e.render? context = some m) :
    (m.AttachmentsFit ↔ ¬e.SaysSticker) ∧
      (e.SaysSticker → m.type = .text ∧ ∃ a, m.attachments = [a] ∧ a.type = "img" ∧
        a.isSticker = true ∧ a.isGif = false) := by
  have htext : e.SaysSticker → m.type = .text ∧ ∃ a, m.attachments = [a] ∧ a.type = "img" ∧
      a.isSticker = true ∧ a.isGif = false := by
    intro hsticker
    have hother : e.effectiveType ≠ EventType.sticker := by
      rw [hsticker.1]
      decide
    have hkind := (saysSticker_iff hsticker.1).mp hsticker
    rcases render?_cases h with ⟨hreaction, -⟩ | ⟨-, rfl⟩
    · exact absurd (hreaction.symm.trans hsticker.1) (by decide)
    · rw [type_contentMessage_of_ne hother, attachments_contentMessage, hkind]
      exact ⟨rfl, exists_attachment_sticker _⟩
  refine ⟨⟨fun hfit hsticker => ?_, fun hfits => ?_⟩, htext⟩
  · obtain ⟨htype, a, ha, -⟩ := htext hsticker
    have htypes := hfit.types
    rw [htype, ha] at htypes
    cases htypes
  · rcases render?_cases h with ⟨-, rfl⟩ | ⟨htype, rfl⟩
    · exact ⟨rfl, fun a ha => absurd ha List.not_mem_nil, fun a ha => absurd ha List.not_mem_nil⟩
    · refine attachments_fit_contentMessage fun hkind => htype.resolve_right fun hmessage => ?_
      exact hfits ((saysSticker_iff hmessage).mpr hkind)

-- A message with media.
def pictured (msgtype : String) : Event where
  type := EventType.message
  content := .object [("info", .object [("mimetype", .string "IMAGE/gif")]),
    ("msgtype", .string msgtype), ("url", .string "mxc://s/1")]

theorem pictured_image_fits :
    ∃ m, (pictured "m.image").render? default = some m ∧ m.AttachmentsFit ∧ m.type = .image ∧
      m.attachments.map (·.isGif) = [true] := by
  have hm : (pictured "m.image").render? default =
      some ((pictured "m.image").contentMessage default) := rfl
  exact ⟨_, hm, (attachments_fit_iff hm).1.mpr (by decide), rfl, by decide⟩

-- The content calls itself a sticker.
theorem attachments_can_differ :
    ¬∀ (e : Event) (context : ChatContext) (m : Message), e.render? context = some m →
      m.AttachmentsFit := by
  intro h
  have hfit := h (pictured "m.sticker") default ((pictured "m.sticker").contentMessage default) rfl
  exact absurd hfit.types (by decide)

end Event

end ChatRelay

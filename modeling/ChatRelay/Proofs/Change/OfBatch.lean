import Mathlib.Data.List.Forall2
import ChatRelay.Proofs.Batch

namespace ChatRelay

-- What an identifier is when it is written with white space around it, and is not blank.
def Text.Names (text id : String) : Prop := id = Text.trim text ∧ id ≠ ""

namespace Event

-- The event relates to something by this identifier.
def RelatesTo (e : Event) (id : String) : Prop :=
  ∃ related, e.relatesTo = some related ∧ Text.Names related id

-- Neither a redaction nor redacted.
def IsLive (e : Event) : Prop :=
  e.effectiveType ≠ EventType.redaction ∧ e.isRedacted = false

-- A redaction takes back what it relates to; every other redacted event is itself taken back.
def Deletes (e : Event) (id : String) : Prop :=
  if e.effectiveType = EventType.redaction then e.RelatesTo id
  else e.isRedacted = true ∧ Text.Names e.eventId id

-- A reaction or an edit changes what it relates to.
def Redirects (e : Event) : Prop :=
  (e.effectiveType = EventType.reaction ∨ e.isEdit = true) ∧ ∃ id, e.RelatesTo id

-- A message stands for itself unless it changes another one.
def Upserts (e : Event) (id : String) : Prop :=
  e.IsLive ∧ EventType.isMessageLike e.effectiveType = true ∧
    (e.Redirects ∧ e.RelatesTo id ∨ ¬e.Redirects ∧ Text.Names e.eventId id)

def Touches (e : Event) : Prop :=
  e.IsLive ∧ (EventType.isMessageLike e.effectiveType = true ∨
    EventType.isChatState e.effectiveType = true)

theorem target?_eq_some_iff {e : Event} {id : String} :
    e.target? = some id ↔ e.RelatesTo id := by
  simp only [target?, Option.bind_eq_some_iff, Text.nonBlank?_eq_some_iff]
  rfl

theorem id?_eq_some_iff {e : Event} {id : String} : e.id? = some id ↔ Text.Names e.eventId id :=
  Text.nonBlank?_eq_some_iff

theorem upsertTarget?_eq_some_iff {e : Event} {id : String} :
    e.upsertTarget? = some id ↔
      e.Redirects ∧ e.RelatesTo id ∨ ¬e.Redirects ∧ Text.Names e.eventId id := by
  have hredirects : e.Redirects ↔
      (e.effectiveType = EventType.reaction ∨ e.isEdit = true) ∧ e.target?.isSome = true := by
    simp [Redirects, Option.isSome_iff_exists, target?_eq_some_iff]
  rw [hredirects, ← target?_eq_some_iff, ← id?_eq_some_iff, upsertTarget?]
  by_cases hkind : e.effectiveType = EventType.reaction ∨ e.isEdit = true
  · cases e.target? <;> simp [hkind]
  · simp [hkind]

-- The rules one after the other: the first that fits decides.
theorem effect_cases (e : Event) :
    (e.effectiveType = EventType.redaction ∧ e.effect = .deletes e.target?) ∨
      (e.effectiveType ≠ EventType.redaction ∧ e.isRedacted = true ∧ e.effect = .deletes e.id?) ∨
      (e.IsLive ∧ e.effect =
        if EventType.isMessageLike e.effectiveType then .upserts e.upsertTarget?
        else if EventType.isChatState e.effectiveType then .touches
        else .nothing) := by
  unfold effect IsLive
  by_cases hredaction : e.effectiveType = EventType.redaction
  · exact .inl ⟨hredaction, if_pos (beq_iff_eq.mpr hredaction)⟩
  · cases hredacted : e.isRedacted with
    | true => exact .inr (.inl ⟨hredaction, rfl, by simp [hredaction]⟩)
    | false => exact .inr (.inr ⟨⟨hredaction, rfl⟩, by simp [hredaction]⟩)

theorem effect_deletes_iff {e : Event} {id : String} :
    e.effect = .deletes (some id) ↔ e.Deletes id := by
  unfold Deletes
  rcases e.effect_cases with ⟨hredaction, heffect⟩ | ⟨hother, hredacted, heffect⟩ | ⟨hlive, heffect⟩
  · simp [heffect, hredaction, target?_eq_some_iff]
  · simp [heffect, hother, hredacted, id?_eq_some_iff]
  · rw [heffect, if_neg hlive.1, hlive.2]
    split
    · simp
    · split <;> simp

theorem effect_upserts_iff {e : Event} {id : String} :
    e.effect = .upserts (some id) ↔ e.Upserts id := by
  unfold Upserts
  rcases e.effect_cases with ⟨hredaction, heffect⟩ | ⟨hother, hredacted, heffect⟩ | ⟨hlive, heffect⟩
  · simp [heffect, IsLive, hredaction]
  · simp [heffect, IsLive, hredacted]
  · rw [heffect, ← upsertTarget?_eq_some_iff]
    split
    · next hlike => simp [hlive, hlike]
    · next hlike => split <;> simp [hlike]

theorem effect_touches_iff {e : Event} :
    (e.effect = .touches ∨ ∃ id, e.effect = .upserts id) ↔ e.Touches := by
  unfold Touches
  rcases e.effect_cases with ⟨hredaction, heffect⟩ | ⟨hother, hredacted, heffect⟩ | ⟨hlive, heffect⟩
  · simp [heffect, IsLive, hredaction]
  · simp [heffect, IsLive, hredacted]
  · rw [heffect]
    split
    · next hlike => simp [hlive, hlike]
    · next hlike => split <;> simp_all

end Event

namespace RoomSync

def Deletes (r : RoomSync) (id : String) : Prop := ∃ e ∈ r.events, e.Deletes id

def Upserts (r : RoomSync) (id : String) : Prop := ∃ e ∈ r.events, e.Upserts id

-- Whether an entry changes its chat, by its events or apart from them.
def Touches (r : RoomSync) : Prop :=
  r.metadataChanged = true ∨ r.stateChanged = true ∨ r.accountDataChanged = true ∨
    r.timelineChanged = true ∨ ∃ e ∈ r.events, e.Touches

-- Two entries that differ at most in the order of their events, and in how often one stands there.
structure Rearranges (r other : RoomSync) : Prop where
  metadata : r.metadata = other.metadata
  state : r.state = other.state
  accountData : r.accountData = other.accountData
  timeline : r.timeline = other.timeline
  events : ∀ e, e ∈ r.events ↔ e ∈ other.events

end RoomSync

namespace RoomChanges

theorem mem_deleted_iff {r : RoomSync} {id : String} :
    id ∈ (ofRoom r).deleted ↔ r.Deletes id := by
  simp only [mem_deleted_ofRoom, Event.effect_deletes_iff]
  rfl

theorem mem_upserted_iff {r : RoomSync} {id : String} :
    id ∈ (ofRoom r).upserted ↔ r.Upserts id := by
  simp only [mem_upserted_ofRoom, Event.effect_upserts_iff]
  rfl

theorem touched_iff {r : RoomSync} : (ofRoom r).touched = true ↔ r.Touches := by
  simp only [touched_ofRoom, Event.effect_touches_iff, RoomSync.changed, Bool.or_eq_true, or_assoc]
  rfl

theorem ofRoom_of_rearranges {r other : RoomSync} (h : r.Rearranges other) :
    ofRoom r = ofRoom other := by
  have htouched : (ofRoom r).touched = (ofRoom other).touched := by
    rw [Bool.eq_iff_iff, touched_iff, touched_iff]
    simp only [RoomSync.Touches, RoomSync.metadataChanged, RoomSync.stateChanged,
      RoomSync.accountDataChanged, RoomSync.timelineChanged, h.metadata, h.state, h.accountData,
      h.timeline, h.events]
  have hupserted : (ofRoom r).upserted = (ofRoom other).upserted := by
    refine IdSet.ext_mem fun id => ?_
    simp only [mem_upserted_iff, RoomSync.Upserts, h.events]
  have hdeleted : (ofRoom r).deleted = (ofRoom other).deleted := by
    refine IdSet.ext_mem fun id => ?_
    simp only [mem_deleted_iff, RoomSync.Deletes, h.events]
  cases hr : ofRoom r
  cases ho : ofRoom other
  simp_all

end RoomChanges

-- Nothing is said except, if the condition holds, this one thing.
def Change.SaidIf (p : Prop) (c : Change) (changes : List Change) : Prop :=
  (p ∧ changes = [c]) ∨ (¬p ∧ changes = [])

theorem Change.saidIf_ite (p : Prop) [Decidable p] (c : Change) :
    SaidIf p c (if p then [c] else []) := by
  by_cases h : p
  · exact .inl ⟨h, if_pos h⟩
  · exact .inr ⟨h, if_neg h⟩

-- What is said of a chat for one entry: that it came or changed, which messages came or changed,
-- and which ones went. What went is not said to have come.
def RoomSync.IsReport (chatId : String) (r : RoomSync) (changes : List Change) : Prop :=
  ∃ (upserted deleted : IdSet) (chat came went : List Change),
    (∀ id, id ∈ upserted ↔ r.Upserts id ∧ ¬r.Deletes id) ∧
    (∀ id, id ∈ deleted ↔ r.Deletes id) ∧
    Change.SaidIf r.Touches (.ofChat .chatUpserted chatId) chat ∧
    Change.SaidIf (upserted ≠ ∅) (.ofMessages .messageUpserted chatId upserted) came ∧
    Change.SaidIf (deleted ≠ ∅) (.ofMessages .messageDeleted chatId deleted) went ∧
    changes = chat ++ came ++ went

theorem RoomChanges.isReport_toChanges (chatId : String) (r : RoomSync) :
    r.IsReport chatId ((ofRoom r).toChanges chatId) := by
  have hsaid (s : IdSet) (kind : ChangeKind) :
      Change.SaidIf (s ≠ ∅) (.ofMessages kind chatId s)
        (if s.isEmpty then [] else [.ofMessages kind chatId s]) := by
    have hite := Change.saidIf_ite (s ≠ ∅) (.ofMessages kind chatId s)
    rwa [ite_not, ← ite_congr (propext IdSet.isEmpty_iff) (fun _ => rfl) fun _ => rfl] at hite
  refine ⟨(ofRoom r).upserted.diff (ofRoom r).deleted, (ofRoom r).deleted, _, _, _, fun id => ?_,
    fun id => mem_deleted_iff, ?_, hsaid _ _, hsaid _ _, rfl⟩
  · rw [IdSet.mem_diff, mem_upserted_iff, mem_deleted_iff]
  · rw [← touched_iff]
    exact Change.saidIf_ite _ _

namespace Batch

structure Rearranges (b other : Batch) : Prop where
  leftRooms : b.leftRooms = other.leftRooms
  rooms : List.Forall₂ (fun x y => x.1 = y.1 ∧ x.2.Rearranges y.2)
    b.rooms.entries other.rooms.entries

-- The named entries are all entries but those without a name.
theorem flatMap_namedRooms (b : Batch) (f : String → RoomSync → List Change) :
    b.namedRooms.flatMap (fun room => f room.1 room.2) =
      b.rooms.entries.flatMap fun entry =>
        if Text.trim entry.1 = "" then [] else f (Text.trim entry.1) entry.2 := by
  unfold namedRooms
  induction b.rooms.entries with
  | nil => rfl
  | cons entry rest ih =>
    rw [List.flatMap_cons, ← ih, List.filterMap_cons]
    by_cases hblank : Text.trim entry.1 = ""
    · have hnone : Text.nonBlank? entry.1 = none := if_pos hblank
      simp only [hnone, hblank, Option.map_none, if_true, List.nil_append]
    · have hsome : Text.nonBlank? entry.1 = some (Text.trim entry.1) := if_neg hblank
      simp only [hsome, hblank, Option.map_some, if_false, List.flatMap_cons]

theorem changes_eq (b : Batch) :
    b.changes =
      ((b.leftRooms.map Text.trim).filter (· ≠ "")).map (.ofChat .chatDeleted) ++
        b.rooms.entries.flatMap fun entry =>
          if Text.trim entry.1 = "" then []
          else (RoomChanges.ofRoom entry.2).toChanges (Text.trim entry.1) := by
  rw [changes, Text.filterMap_nonBlank?]
  exact congrArg _ (b.flatMap_namedRooms fun chatId r => (RoomChanges.ofRoom r).toChanges chatId)

theorem changes_of_rearranges {b other : Batch} (h : b.Rearranges other) :
    b.changes = other.changes := by
  rw [changes_eq, changes_eq, h.leftRooms]
  congr 1
  have hrooms := h.rooms
  generalize b.rooms.entries = xs at hrooms ⊢
  generalize other.rooms.entries = ys at hrooms ⊢
  induction hrooms with
  | nil => rfl
  | cons hxy _ ih =>
    rw [List.flatMap_cons, List.flatMap_cons, hxy.1, RoomChanges.ofRoom_of_rearranges hxy.2, ih]

-- For all batches. First it is said of every room that was left that its chat went, in the order of
-- the batch; then comes what is to be said for every entry, in the order of their keys. Rooms
-- without a name are passed over.
theorem changes_by_rules (b : Batch) :
    (∃ report : String → RoomSync → List Change,
      (∀ key r,
        if Text.trim key = "" then report key r = []
        else r.IsReport (Text.trim key) (report key r)) ∧
      b.changes =
        ((b.leftRooms.map Text.trim).filter (· ≠ "")).map (.ofChat .chatDeleted) ++
          b.rooms.entries.flatMap fun entry => report entry.1 entry.2) ∧
    ∀ other, b.Rearranges other → b.changes = other.changes := by
  refine ⟨⟨fun key r => if Text.trim key = "" then []
    else (RoomChanges.ofRoom r).toChanges (Text.trim key), fun key r => ?_, b.changes_eq⟩,
    fun other h => changes_of_rearranges h⟩
  by_cases hblank : Text.trim key = ""
  · simp only [hblank, if_true]
  · simp only [hblank, if_false]
    exact RoomChanges.isReport_toChanges _ r

-- A message with a reaction to it, a message that is taken back, and an edit that does not tell
-- what it edits.
def chatter : List Event :=
  [{ eventId := "$1", type := EventType.message },
   { eventId := "$2", type := EventType.reaction, relatesTo := some " $1 " },
   { eventId := "$3", type := EventType.message },
   { eventId := "$4", type := EventType.redaction, relatesTo := some "$3" },
   { eventId := " $5 ", type := EventType.message, relationType := some EventType.replacement }]

def chatting (events : List Event) : Batch :=
  { leftRooms := [" ", " !b "], rooms := .ofList [(" !a", { events }), ("", { events })] }

theorem chatting_rearranged :
    (chatting chatter).Rearranges (chatting (chatter.reverse ++ chatter)) ∧
      (chatting chatter).changes = (chatting (chatter.reverse ++ chatter)).changes ∧
      (chatting chatter).changes =
        [.ofChat .chatDeleted "!b", .ofChat .chatUpserted "!a",
         .ofMessages .messageUpserted "!a" (.ofList ["$1", "$5"]),
         .ofMessages .messageDeleted "!a" (.ofList ["$3"])] := by
  have hentry :
      RoomSync.Rearranges { events := chatter } { events := chatter.reverse ++ chatter } :=
    ⟨rfl, rfl, rfl, rfl, by simp⟩
  have hrearranged : (chatting chatter).Rearranges (chatting (chatter.reverse ++ chatter)) :=
    ⟨rfl, .cons ⟨rfl, hentry⟩ (.cons ⟨rfl, hentry⟩ .nil)⟩
  exact ⟨hrearranged, (changes_by_rules (chatting chatter)).2 _ hrearranged, by decide +kernel⟩

end Batch

end ChatRelay

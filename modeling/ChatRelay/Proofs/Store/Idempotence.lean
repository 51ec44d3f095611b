import ChatRelay.Proofs.Store.Deletion
import ChatRelay.Proofs.Table

namespace ChatRelay

-- A set of functions, closed under composition, of which none does anything more when it is done
-- again.
structure Band (α : Type) where
  mem : (α → α) → Prop
  same : mem fun x => x
  comp : ∀ {f g}, mem f → mem g → mem fun x => g (f x)
  again : ∀ {f}, mem f → ∀ x, f (f x) = f x

namespace Band

variable {α β : Type}

theorem foldl (band : Band α) {op : β → α → α} (xs : List β) (h : ∀ x ∈ xs, band.mem (op x)) :
    band.mem fun a => xs.foldl (fun a x => op x a) a := by
  induction xs with
  | nil => exact band.same
  | cons x xs ih =>
    have hrest := ih fun y hy => h y (List.mem_cons_of_mem _ hy)
    exact band.comp (h x List.mem_cons_self) hrest

-- It stays, or something is put in its place.
def placed (α : Type) : Band α where
  mem f := f = (fun x => x) ∨ ∃ v, f = fun _ => v
  same := .inl rfl
  comp := by
    rintro f g hf (rfl | ⟨v, rfl⟩)
    · exact hf
    · exact .inr ⟨v, rfl⟩
  again := by
    rintro f (rfl | ⟨v, rfl⟩) x <;> rfl

-- It stays, or something is put in its place, or it is there from now on and changed from what it
-- was or from the default.
def slot (default : α) (inner : Band α) : Band (Option α) where
  mem f := (placed (Option α)).mem f ∨ ∃ g, inner.mem g ∧ f = fun x => some (g (x.getD default))
  same := .inl (placed _).same
  comp := by
    rintro f g hf (hg | ⟨g, hg, rfl⟩)
    · rcases hg with rfl | ⟨v, rfl⟩
      · exact hf
      · exact .inl (.inr ⟨v, rfl⟩)
    · rcases hf with (rfl | ⟨v, rfl⟩) | ⟨f, hf, rfl⟩
      · exact .inr ⟨g, hg, rfl⟩
      · exact .inl (.inr ⟨some (g (v.getD default)), rfl⟩)
      · exact .inr ⟨_, inner.comp hf hg, rfl⟩
  again := by
    rintro f (hf | ⟨g, hg, rfl⟩) x
    · exact (placed _).again hf x
    · simp only [Option.getD_some, inner.again hg]

-- What becomes of each key of a table is in the band of that key.
def table (inner : String → Band (Option α)) : Band (Table α) where
  mem f := ∀ key, ∃ g, (inner key).mem g ∧ ∀ t : Table α, (f t).get? key = g (t.get? key)
  same key := ⟨_, (inner key).same, fun _ => rfl⟩
  comp := by
    intro f g hf hg key
    obtain ⟨f', hf', hf⟩ := hf key
    obtain ⟨g', hg', hg⟩ := hg key
    exact ⟨_, (inner key).comp hf' hg', fun t => by rw [hg, hf]⟩
  again := by
    intro f hf t
    refine Table.ext_get? fun key => ?_
    obtain ⟨g, hg, hf⟩ := hf key
    rw [hf, hf, (inner key).again hg]

section

variable {inner : String → Band (Option α)} (key : String)

theorem table_at {f : Table α → Table α} {g : Option α → Option α} (hg : (inner key).mem g)
    (hkey : ∀ t, (f t).get? key = g (t.get? key))
    (hother : ∀ other, other ≠ key → ∀ t, (f t).get? other = t.get? other) :
    (table inner).mem f := by
  intro other
  by_cases h : other = key
  · subst h
    exact ⟨g, hg, hkey⟩
  · exact ⟨_, (inner other).same, hother other h⟩

theorem table_insert {g : Option α → α} (hg : (inner key).mem fun x => some (g x)) :
    (table inner).mem fun t => t.insert key (g (t.get? key)) := by
  refine table_at key hg (fun t => ?_) fun other hne t => ?_
  · rw [Table.get?_insert, if_pos rfl]
  · rw [Table.get?_insert, if_neg hne]

theorem table_erase (hg : (inner key).mem fun _ => none) :
    (table inner).mem fun t => t.erase key := by
  refine table_at key hg (fun t => ?_) fun other hne t => ?_
  · rw [Table.get?_erase, if_pos rfl]
  · rw [Table.get?_erase, if_neg hne]

end

end Band

namespace Room

-- A room with another name and account, where these are given.
def overlaid (name account : Option String) (r : Room) : Room :=
  { r with name := name <|> r.name, accountId := account.getD r.accountId }

def band : Band Room where
  mem f := ∃ name account, f = overlaid name account
  same := ⟨none, none, rfl⟩
  comp := by
    rintro f g ⟨name, account, rfl⟩ ⟨name', account', rfl⟩
    refine ⟨name' <|> name, account' <|> account, funext fun r => ?_⟩
    cases name' <;> cases account' <;> rfl
  again := by
    rintro f ⟨name, account, rfl⟩ r
    cases name <;> cases account <;> rfl

theorem describe_mem (metadata : Json) : band.mem fun r => r.describe metadata :=
  ⟨_, _, rfl⟩

end Room

namespace Event

-- An event that a redaction marks, if there is one.
def marked (redaction : Option String) (e : Event) : Event :=
  match redaction with
  | some id => { e with redactedBy := some id }
  | none => e

-- An event goes with its room, if that is one of some rooms, and is marked otherwise; or another
-- one is put in its place.
def band : Band (Option Event) where
  mem f :=
    (∃ v, f = fun _ => v) ∨
      ∃ (gone : List String) (redaction : Option String),
        f = fun x => (x.filter (·.roomId ∉ gone)).map (marked redaction)
  same := .inr ⟨[], none, funext fun x => by cases x <;> rfl⟩
  comp := by
    rintro f g hf (⟨v, rfl⟩ | ⟨gone', redaction', rfl⟩)
    · exact .inl ⟨v, rfl⟩
    · rcases hf with ⟨v, rfl⟩ | ⟨gone, redaction, rfl⟩
      · exact .inl ⟨_, rfl⟩
      · refine .inr ⟨gone ++ gone', redaction' <|> redaction, funext fun x => ?_⟩
        cases x with
        | none => rfl
        | some e =>
          by_cases hgone : e.roomId ∈ gone
          · simp [Option.filter_some, hgone]
          · by_cases hgone' : e.roomId ∈ gone' <;> cases redaction <;> cases redaction' <;>
              simp [Option.filter_some, hgone, hgone', marked]
  again := by
    rintro f (⟨v, rfl⟩ | ⟨gone, redaction, rfl⟩) x
    · rfl
    · cases x with
      | none => rfl
      | some e =>
        by_cases hgone : e.roomId ∈ gone
        · simp [Option.filter_some, hgone]
        · cases redaction <;> simp [Option.filter_some, hgone, marked]

end Event

namespace Store

def roomsBand (ownUserId : String) : Band (Table Room) :=
  .table fun id => .slot (.unnamed ownUserId id) Room.band

def eventsBand : Band (Table Event) := .table fun _ => Event.band

def namesBand : Band (Table String) := .table fun _ => .placed _

def membersBand : Band (Table (Table String)) := .table fun _ => .slot ∅ namesBand

-- What happens to the three tables does not depend on one another. A room that is new gets its
-- account from the own user, who stays the same.
def band : Band Store where
  mem op := ∀ ownUserId, ∃ rooms events members,
    (roomsBand ownUserId).mem rooms ∧ eventsBand.mem events ∧ membersBand.mem members ∧
      ∀ s : Store, s.ownUserId = ownUserId → op s =
        { s with rooms := rooms s.rooms, events := events s.events, members := members s.members }
  same ownUserId :=
    ⟨_, _, _, (roomsBand ownUserId).same, eventsBand.same, membersBand.same, fun _ _ => rfl⟩
  comp := by
    intro f g hf hg ownUserId
    obtain ⟨rooms, events, members, hrooms, hevents, hmembers, hf⟩ := hf ownUserId
    obtain ⟨rooms', events', members', hrooms', hevents', hmembers', hg⟩ := hg ownUserId
    refine ⟨_, _, _, (roomsBand ownUserId).comp hrooms hrooms', eventsBand.comp hevents hevents',
      membersBand.comp hmembers hmembers', fun s hs => ?_⟩
    have hfs := hf s hs
    have hgs := hg (f s) (by rw [hfs]; exact hs)
    exact hgs.trans (by rw [hfs])
  again := by
    intro f hf s
    obtain ⟨rooms, events, members, hrooms, hevents, hmembers, hf⟩ := hf s.ownUserId
    have hfs := hf s rfl
    have hffs := hf (f s) (by rw [hfs])
    rw [hffs, hfs]
    simp only [Band.again _ hrooms, Band.again _ hevents, Band.again _ hmembers]

theorem leave_mem (roomId : String) : band.mem fun s => s.leave roomId := by
  intro ownUserId
  have hrooms : (roomsBand ownUserId).mem fun t => t.erase roomId :=
    Band.table_erase roomId (.inl (.inr ⟨none, rfl⟩))
  have hevents : eventsBand.mem fun t => t.filter fun _ e => e.roomId ≠ roomId := by
    intro id
    refine ⟨_, .inr ⟨[roomId], none, rfl⟩, fun t => ?_⟩
    rw [Table.get?_filter]
    cases t.get? id with
    | none => rfl
    | some e => by_cases h : e.roomId = roomId <;> simp [Option.filter_some, h, Event.marked]
  have hmembers : membersBand.mem fun t => t.erase roomId :=
    Band.table_erase roomId (.inl (.inr ⟨none, rfl⟩))
  exact ⟨_, _, _, hrooms, hevents, hmembers, fun _ _ => rfl⟩

theorem enter_mem (roomId : String) (metadata : Option Json) :
    band.mem fun s => s.enter roomId metadata := by
  intro ownUserId
  have hdescribed : Room.band.mem fun r => (metadata.map r.describe).getD r := by
    cases metadata with
    | none => exact Room.band.same
    | some metadata => exact Room.describe_mem metadata
  have hroom : (Band.slot (.unnamed ownUserId roomId) Room.band).mem _ :=
    .inr ⟨_, hdescribed, rfl⟩
  refine ⟨_, _, _, Band.table_insert roomId hroom, eventsBand.same, membersBand.same,
    fun s hs => ?_⟩
  simp only [enter, hs]

theorem redact_mem (e : Event) : band.mem fun s => s.redact e := by
  unfold redact
  by_cases hredaction : e.effectiveType = EventType.redaction
  · simp only [if_pos hredaction]
    cases e.target? with
    | none => exact band.same
    | some target =>
      intro ownUserId
      have hevents : eventsBand.mem fun t =>
          t.modify target fun t => { t with redactedBy := some e.eventId } := by
        have hmarked : Event.band.mem _ := .inr ⟨[], some e.eventId, rfl⟩
        refine Band.table_at target hmarked (fun t => ?_) fun other hne t => ?_
        · rw [Table.get?_modify, if_pos rfl]
          cases t.get? target <;> simp [Option.filter_some, Event.marked]
        · rw [Table.get?_modify, if_neg hne]
      exact ⟨_, _, _, (roomsBand ownUserId).same, hevents, membersBand.same, fun _ _ => rfl⟩
  · simp only [if_neg hredaction]
    exact band.same

theorem noteMember_mem (e : Event) : band.mem fun s => s.noteMember e := by
  unfold noteMember
  by_cases hmember : e.effectiveType = EventType.member
  · simp only [if_pos hmember]
    cases e.member? with
    | none => exact band.same
    | some userId =>
      intro ownUserId
      have hnames : namesBand.mem fun names => if e.endsMembership then names.erase userId
          else names.insert userId (e.memberName userId) := by
        have hgone : namesBand.mem fun names => names.erase userId :=
          Band.table_erase userId (.inr ⟨none, rfl⟩)
        have hhere : namesBand.mem fun names => names.insert userId (e.memberName userId) :=
          Band.table_insert userId (g := fun _ => e.memberName userId) (.inr ⟨_, rfl⟩)
        cases e.endsMembership with
        | true => exact hgone
        | false => exact hhere
      have hmembers : (Band.slot ∅ namesBand).mem _ := .inr ⟨_, hnames, rfl⟩
      exact ⟨_, _, _, (roomsBand ownUserId).same, eventsBand.same,
        Band.table_insert e.roomId hmembers, fun _ _ => rfl⟩
  · simp only [if_neg hmember]
    exact band.same

theorem keep_mem (e : Event) : band.mem fun s => s.keep e := by
  unfold keep
  cases e.id? with
  | none => exact band.same
  | some id =>
    intro ownUserId
    have hkept : Event.band.mem fun _ => some e := .inl ⟨_, rfl⟩
    exact ⟨_, _, _, (roomsBand ownUserId).same, Band.table_insert id hkept, membersBand.same,
      fun _ _ => rfl⟩

theorem record_mem (e : Event) : band.mem fun s => s.record e :=
  band.comp (band.comp (redact_mem e) (noteMember_mem e)) (keep_mem e)

theorem applyRoom_mem (roomId : String) (room : RoomSync) :
    band.mem fun s => s.applyRoom roomId room := by
  have hevents := band.foldl (room.events.map (·.inRoom roomId)) fun e _ => record_mem e
  exact band.comp (enter_mem roomId room.metadata) hevents

theorem apply_mem (b : Batch) : band.mem fun s => s.apply b := by
  have hleft := band.foldl (b.leftRooms.map Text.trim) fun roomId _ => leave_mem roomId
  have hrooms := band.foldl b.namedRooms fun room _ => applyRoom_mem room.1 room.2
  exact band.comp hleft hrooms

-- A batch that comes again changes nothing.
theorem apply_apply (s : Store) (b : Batch) : (s.apply b).apply b = s.apply b :=
  band.again (apply_mem b) s

end Store

namespace Event

-- The last event that is stored under an identifier, and the events after it.
def lastOwn? (id : String) : List Event → Option (Event × List Event)
  | [] => none
  | e :: rest => (lastOwn? id rest).or (if e.id? = some id then some (e, rest) else none)

-- The mark that the last redaction of an identifier leaves.
def lastMark? (id : String) (events : List Event) : Option String :=
  (events.filter (·.redacts id)).getLast?.map (·.eventId)

-- What is stored under an identifier after some events: the last one that is stored under it, or
-- else what was there before them, with the last mark that comes after it.
def left? (id : String) (events : List Event) (stored : Option Event) : Option Event :=
  match lastOwn? id events with
  | some (e, after) => some (e.marked (lastMark? id after))
  | none => stored.map (marked (lastMark? id events))

theorem marked_marked (first last : Option String) (e : Event) :
    (e.marked first).marked last = e.marked (last.or first) := by
  cases first <;> cases last <;> rfl

theorem lastMark?_cons (id : String) (e : Event) (events : List Event) :
    lastMark? id (e :: events) =
      (lastMark? id events).or (if e.redacts id then some e.eventId else none) := by
  by_cases h : e.redacts id = true
  · simp only [lastMark?, List.filter_cons, h, if_true, List.getLast?_cons]
    cases (events.filter (·.redacts id)).getLast? <;> rfl
  · simp [lastMark?, h]

theorem lastOwn?_eq_none_iff {id : String} {events : List Event} :
    lastOwn? id events = none ↔ ∀ e ∈ events, e.id? ≠ some id := by
  induction events with
  | nil => simp [lastOwn?]
  | cons e events ih => simp [lastOwn?, ih, and_comm]

theorem mem_of_lastOwn? {id : String} {events after : List Event} {e : Event}
    (h : lastOwn? id events = some (e, after)) : e ∈ events ∧ e.id? = some id := by
  induction events with
  | nil => cases h
  | cons first events ih =>
    rcases Option.or_eq_some_iff.mp h with h | ⟨-, h⟩
    · exact ⟨List.mem_cons_of_mem _ (ih h).1, (ih h).2⟩
    · obtain ⟨hid, h⟩ := Option.ite_none_right_eq_some.mp h
      obtain ⟨rfl, -⟩ := Prod.mk.inj (Option.some.inj h)
      exact ⟨List.mem_cons_self, hid⟩

theorem roomId_marked (redaction : Option String) (e : Event) :
    (e.marked redaction).roomId = e.roomId := by
  cases redaction <;> rfl

theorem foldl_fate (id : String) (events : List Event) (stored : Option Event) :
    events.foldl (fun stored e => e.fate id stored) stored = left? id events stored := by
  induction events generalizing stored with
  | nil => cases stored <;> rfl
  | cons e events ih =>
    rw [List.foldl_cons, ih]
    cases hown : lastOwn? id events with
    | some found => simp [left?, lastOwn?, hown]
    | none =>
      by_cases hid : e.id? = some id
      · simp [left?, lastOwn?, hown, fate, hid]
      · by_cases hredacts : e.redacts id = true
        · have hmarks : ∀ t : Event, marked (lastMark? id events) { t with
              redactedBy := some e.eventId } = t.marked (lastMark? id (e :: events)) := by
            intro t
            rw [lastMark?_cons, if_pos hredacts]
            exact marked_marked (some e.eventId) (lastMark? id events) t
          simp [left?, lastOwn?, hown, fate, hid, hredacts, hmarks, Function.comp_def]
        · simp [left?, lastOwn?, hown, fate, hid, hredacts, lastMark?_cons]

end Event

namespace Store

-- After every history of batches a batch that is applied twice leaves the rooms, the events with
-- their marks and the names of the members that it leaves when it is applied once. Under each
-- identifier this is its last event of that identifier, or what was there unless its room was left,
-- with the last mark that comes after it.
theorem apply_idempotent (ownUserId : String) (batches : List Batch) (b : Batch) :
    let before := ofBatches ownUserId batches
    let once := before.apply b
    let twice := once.apply b
    twice.rooms = once.rooms ∧ twice.events = once.events ∧
      (∀ roomId, twice.memberNames roomId = once.memberNames roomId) ∧
      ∀ id, once.events.get? id = Event.left? id b.recorded
        ((before.events.get? id).filter (·.roomId ∉ b.leftRooms.map Text.trim)) := by
  intro before once twice
  have hsame : twice = once := apply_apply before b
  refine ⟨by rw [hsame], by rw [hsame], fun roomId => by rw [hsame], fun id => ?_⟩
  rw [get?_apply, Event.foldl_fate, get?_afterLeaving]

end Store

end ChatRelay

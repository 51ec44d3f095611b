import ChatRelay.Proofs.Message.OneByOne

namespace ChatRelay

-- The questions that fail, with the reason of each. Of the events, any may be unreadable.
structure Failures where
  room : Option ReadError := none
  memberNames : Option ReadError := none
  reactions : Option ReadError := none
  event : String → Option ReadError := fun _ => none

def Outage.failures (outage : Outage) : Failures where
  room := outage.room
  memberNames := outage.memberNames
  reactions := outage.reactions
  event id := if id ∈ outage.events then some (.query "event") else none

-- What is left of a message without what could not be read about its chat.
def Failures.dim (f : Failures) (m : Message) : Message :=
  { m with
    senderName := if f.memberNames.isSome then m.senderId else m.senderName
    reactions := if f.reactions.isSome then [] else m.reactions }

namespace Reader

def failing (r : Reader) (f : Failures) : Reader where
  ownUserId := r.ownUserId
  room id := Outage.guard f.room (r.room id)
  event id := Outage.guard (f.event id) (r.event id)
  memberNames roomId := Outage.guard f.memberNames (r.memberNames roomId)
  reactions roomId ids := Outage.guard f.reactions (r.reactions roomId ids)

-- An outage is one such choice: it gives every unreadable event the same reason.
theorem during_eq_failing (r : Reader) (outage : Outage) :
    r.during outage = r.failing outage.failures := by
  have hevent (id : String) : (if id ∈ outage.events then .error (.query "event") else r.event id) =
      Outage.guard (if id ∈ outage.events then some (.query "event") else none) (r.event id) := by
    split <;> rfl
  unfold during failing Outage.failures
  simp only [hevent]

variable {r : Reader} {f : Failures} {chatId id : String} {room : Room}

theorem eventOf?_failing :
    (r.failing f).eventOf? chatId id = if (f.event id).isSome then none else r.eventOf? chatId id := by
  simp only [eventOf?, failing]
  cases f.event id <;> rfl

theorem orEmpty_guard {α : Type} (failure : Option ReadError) (answer : Except ReadError (Table α)) :
    orEmpty (Outage.guard failure answer) = if failure.isSome then ∅ else orEmpty answer := by
  cases failure <;> rfl

theorem Coherent.failing (hr : r.Coherent chatId) (f : Failures) : (r.failing f).Coherent chatId where
  own asked e h := by
    cases hevent : f.event asked with
    | some reason =>
      simp only [Reader.failing, hevent] at h
      cases h
    | none =>
      simp only [Reader.failing, hevent] at h
      exact hr.own asked e h
  reactions ids id hid := by
    simp only [Reader.failing, orEmpty_guard]
    split
    · rfl
    · exact hr.reactions ids id hid

theorem render?_failing (e : Event) (events : List Event) :
    e.render? ((r.failing f).contextOf room chatId events) =
      (e.render? (r.contextOf room chatId events)).map f.dim := by
  let whole := r.contextOf room chatId events
  let dimmed := (r.failing f).contextOf room chatId events
  have hwhole := e.render?_of_context (c := whole) (d := whole) rfl rfl
  rw [e.render?_of_context (c := whole) (d := dimmed) rfl rfl]
  refine Option.map_congr fun m hm => ?_
  rw [Option.mem_def.mp hm, Option.map_some, Option.some.injEq] at hwhole
  have hname : m.senderName = (whole.memberNames.get? m.senderId).getD m.senderId :=
    congrArg Message.senderName hwhole
  have hreactions : m.reactions = (whole.reactions.get? m.id).getD [] :=
    congrArg Message.reactions hwhole
  have hmembers : dimmed.memberNames = if f.memberNames.isSome then ∅ else whole.memberNames :=
    orEmpty_guard _ _
  have hreacted : dimmed.reactions = if f.reactions.isSome then ∅ else whole.reactions :=
    orEmpty_guard _ _
  unfold Failures.dim
  rw [hname, hreactions, hmembers, hreacted]
  cases f.memberNames <;> cases f.reactions <;> rfl

theorem messageOf?_failing :
    (r.failing f).messageOf? chatId id room =
      if (f.event id).isSome then none else (r.messageOf? chatId id room).map f.dim := by
  unfold messageOf?
  rw [eventOf?_failing]
  split
  · rfl
  · rw [Option.map_bind]
    refine congrArg _ (funext fun e => ?_)
    rw [render?_failing, Function.comp_apply, apply_ite (Option.map f.dim), Option.map_none]

theorem Coherent.messages_failing (hr : r.Coherent chatId) {room? : Option Room}
    (hroom : r.room chatId = .ok room?) (hf : f.room = none) (ids : List String) :
    ∃ found, r.messages chatId (ids.filter fun id => (f.event (Text.trim id)).isNone) = .ok found ∧
      (r.failing f).messages chatId ids = .ok (found.map f.dim) := by
  have hroom' : (r.failing f).room chatId = .ok room? := by
    rw [Reader.failing, hf]
    exact hroom
  refine ⟨_, hr.messages_eq hroom _, ?_⟩
  rw [(hr.failing f).messages_eq hroom', wanted_filter fun id => (f.event id).isNone,
    List.map_filterMap, List.filterMap_filter]
  refine congrArg Except.ok (List.filterMap_congr fun id _ => ?_)
  simp only [messageOf?_failing]
  cases f.event id <;> cases room? <;> rfl

end Reader

end ChatRelay

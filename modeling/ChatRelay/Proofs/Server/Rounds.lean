import ChatRelay.Proofs.Hub.Run
import ChatRelay.Server.Operation

namespace ChatRelay.Server

open Hub (Step)

theorem foldl_note (s : Server) (id : ConnectionId) (outcomes : List Write.Outcome) :
    ∃ sent, outcomes.foldl (note id) s = { s with sent } := by
  induction outcomes generalizing s with
  | nil => exact ⟨s.sent, rfl⟩
  | cons o outcomes ih =>
    obtain ⟨sent, hnote⟩ : ∃ sent, note id s o = { s with sent } := by
      unfold note
      split
      · exact ⟨_, rfl⟩
      · exact ⟨s.sent, rfl⟩
    obtain ⟨sent', hrest⟩ := ih { s with sent }
    exact ⟨sent', by rw [List.foldl_cons, hnote, hrest]⟩

-- A write touches nothing but the lines of the connections.
theorem write_eq (s : Server) (writer : Writer) (id : ConnectionId) (frame : Frame) :
    ∃ connections sent outcome,
      s.write writer id frame = ({ s with connections, sent }, outcome) := by
  unfold write put
  split
  · exact ⟨s.connections, s.sent, _, rfl⟩
  · next c _ =>
    obtain ⟨sent, hnote⟩ := foldl_note (s.modify id fun c' => { c' with
      line := (c.line.put s.now { writer, frame, limit := s.limit frame }).1 }) id
      (c.line.put s.now { writer, frame, limit := s.limit frame }).2
    exact ⟨_, sent, _, Prod.ext hnote rfl⟩

theorem beginWrites_eq (s : Server) (offers : List (ConnectionId × Frame)) :
    ∃ connections sent round, s.beginWrites offers = ({ s with connections, sent }, round) ∧
      round.map (·.1) = offers.map (·.1) := by
  induction offers generalizing s with
  | nil => exact ⟨s.connections, s.sent, [], rfl, rfl⟩
  | cons offer offers ih =>
    obtain ⟨id, frame⟩ := offer
    obtain ⟨connections, sent, outcome, hwrite⟩ := s.write_eq .dispatch id frame
    obtain ⟨connections', sent', round, hrest, hids⟩ := ih { s with connections, sent }
    refine ⟨connections', sent', (id, outcome) :: round, ?_, by rw [List.map_cons, hids]; rfl⟩
    simp only [beginWrites, hwrite, hrest]

theorem outcomes?_cons (id : ConnectionId) (result : Option (Except WriteError Unit))
    (round : List (ConnectionId × Option (Except WriteError Unit))) :
    outcomes? ((id, result) :: round) =
      result.bind fun r => (outcomes? round).map ((id, r) :: ·) := by
  have hcons : outcomes? ((id, result) :: round) =
      (result.map (id, ·)).bind fun first => (outcomes? round).bind fun rest =>
        some (first :: rest) := List.mapM_cons
  rw [hcons]
  cases result with
  | none => rfl
  | some r => cases outcomes? round <;> rfl

theorem outcomes?_ids {round : List (ConnectionId × Option (Except WriteError Unit))}
    {outcomes : List (ConnectionId × Except WriteError Unit)}
    (h : outcomes? round = some outcomes) : outcomes.map (·.1) = round.map (·.1) := by
  induction round generalizing outcomes with
  | nil =>
    obtain rfl : [] = outcomes := by simpa [outcomes?] using h
    rfl
  | cons entry round ih =>
    obtain ⟨id, result⟩ := entry
    rw [outcomes?_cons] at h
    obtain ⟨r, rfl, h⟩ := Option.bind_eq_some_iff.mp h
    obtain ⟨rest, hrest, rfl⟩ := Option.map_eq_some_iff.mp h
    rw [List.map_cons, List.map_cons, ih hrest]

-- Outcomes for different connections are those of some writes.
theorem exists_writes {offers : List (ConnectionId × Frame)}
    {outcomes : List (ConnectionId × Except WriteError Unit)}
    (hids : outcomes.map (·.1) = offers.map (·.1)) (hnodup : (offers.map (·.1)).Nodup) :
    ∃ write : Hub.Writes, outcomes = offers.map fun (id, frame) => (id, write id frame) := by
  induction offers generalizing outcomes with
  | nil => exact ⟨fun _ _ => .ok (), by simpa using hids⟩
  | cons offer offers ih =>
    obtain ⟨id, frame⟩ := offer
    obtain ⟨⟨id', result⟩, rest, rfl, rfl, hrest⟩ := List.map_eq_cons_iff.mp hids
    obtain ⟨hid, hnodup⟩ := List.nodup_cons.mp hnodup
    obtain ⟨write, hwrite⟩ := ih hrest hnodup
    refine ⟨fun other frame => if other = id' then result else write other frame, ?_⟩
    simp only [List.map_cons, if_true, List.cons.injEq, true_and]
    rw [hwrite]
    refine List.map_congr_left fun offer hoffer => ?_
    have hne : offer.1 ≠ id' := fun h => hid (List.mem_map.mpr ⟨offer, hoffer, h⟩)
    simp only [if_neg hne]

theorem settleRound_eq {counted : Bool} {s : Server}
    {outcomes : List (ConnectionId × Except WriteError Unit)}
    (hidle : (settleRound counted s outcomes).dispatcher.stage.isIdle = true) :
    ∃ connections sent dispatcher, settleRound counted s outcomes =
      { s with connections, sent, dispatcher, hub := (s.hub.settle counted outcomes).1 } := by
  induction outcomes generalizing s with
  | nil => exact ⟨_, _, _, rfl⟩
  | cons outcome rest ih =>
    obtain ⟨id, result⟩ := outcome
    cases result with
    | ok u =>
      simp only [settleRound, Hub.settle] at hidle ⊢
      obtain ⟨connections, sent, dispatcher, heq⟩ := ih hidle
      refine ⟨connections, sent, dispatcher, ?_⟩
      rw [heq]
      cases counted <;> rfl
    | error e =>
      have hdrop : s.hub.drop id = ({ s.hub with registry := s.hub.registry.unregister id },
        s.hub.registry.contains id) := rfl
      simp only [settleRound, Hub.settle, hdrop] at hidle ⊢
      cases hc : s.hub.registry.contains id with
      | false =>
        simp only [hc] at hidle ⊢
        obtain ⟨connections, sent, dispatcher, heq⟩ := ih hidle
        exact ⟨connections, sent, dispatcher, heq⟩
      | true =>
        simp only [hc] at hidle ⊢
        obtain ⟨connections, sent, outcome, hwrite⟩ := write_eq
          { s with hub := { s.hub with registry := s.hub.registry.unregister id } }
          .dispatch id .close
        simp only [hwrite] at hidle ⊢
        cases outcome with
        | none => simp [setStage, Dispatcher.Stage.isIdle] at hidle
        | some result =>
          obtain ⟨connections', sent', dispatcher, heq⟩ := ih hidle
          exact ⟨connections', sent', dispatcher, heq⟩

theorem makeRound_eq {counted : Bool} {s : Server} {offers : List (ConnectionId × Frame)}
    (hnodup : (offers.map (·.1)).Nodup)
    (hidle : (s.makeRound counted offers).dispatcher.stage.isIdle = true) :
    ∃ write connections sent dispatcher, s.makeRound counted offers =
      { s with connections, sent, dispatcher, hub := (s.hub.round write counted offers).1 } := by
  obtain ⟨connections, sent, round, hbegin, hids⟩ := s.beginWrites_eq offers
  simp only [makeRound, hbegin, settleIfOver] at hidle ⊢
  cases hover : outcomes? round with
  | none => simp [hover, setStage, Dispatcher.Stage.isIdle] at hidle
  | some outcomes =>
    simp only [hover] at hidle ⊢
    obtain ⟨write, rfl⟩ := exists_writes ((outcomes?_ids hover).trans hids) hnodup
    obtain ⟨connections', sent', dispatcher, hsettle⟩ := settleRound_eq hidle
    exact ⟨write, connections', sent', dispatcher, hsettle⟩

theorem announce_eq {s : Server} {c : Change}
    (hidle : (s.announce c).dispatcher.stage.isIdle = true) :
    ∃ write connections sent dispatcher, s.announce c =
      { s with connections, sent, dispatcher
               hub := (s.hub.dispatch s.lookup s.now s.now write c).1 } := by
  let d : Hub.Dispatch :=
    { hub := s.hub, change := c
      occasion := { lookup := s.lookup, now := s.now, time := s.now, write := fun _ _ => .ok () } }
  have hannounce : s.hub.announce s.lookup s.now s.now c = (d.announced, d.announcement) :=
    d.announce_eq
  have hnodup : (d.announcement.frames.map (·.1)).Nodup := by
    simpa [Function.comp_def] using d.frames_nodup
  simp only [announce, hannounce] at hidle
  obtain ⟨write, connections, sent, dispatcher, hround⟩ := makeRound_eq hnodup hidle
  refine ⟨write, connections, sent, dispatcher, ?_⟩
  simp only [announce, Hub.dispatch, hannounce]
  exact hround

theorem ping_eq {s : Server} (hidle : s.ping.dispatcher.stage.isIdle = true) :
    ∃ write connections sent dispatcher, s.ping =
      { s with connections, sent, dispatcher, hub := (s.hub.keepalive write).1 } := by
  have hnodup : (s.hub.pings.map (·.1)).Nodup := by
    simp only [Hub.pings, List.map_map, Function.comp_def, List.map_id']
    exact s.hub.registry.nodup
  obtain ⟨write, connections, sent, dispatcher, hround⟩ := makeRound_eq hnodup hidle
  exact ⟨write, connections, sent, dispatcher, hround⟩

-- What an announcement does does not depend on the changes that are still to be announced.
theorem perform_dispatch_eq (h : Hub) (c : Change) (rest : List Change) (o : Hub.Occasion) :
    (({ h with pending := c :: rest } : Hub).perform (.dispatch o)).1 =
      { (h.dispatch o.lookup o.now o.time o.write c).1 with pending := rest } := by
  have hwith := Hub.Dispatch.result_hub
    { hub := { h with pending := rest }, change := c, occasion := o }
  have hwithout := Hub.Dispatch.result_hub { hub := h, change := c, occasion := o }
  simp only [Hub.Dispatch.result] at hwith hwithout
  simp only [Hub.perform, hwith, hwithout]
  rfl

-- The steps that the dispatcher of a server takes at one moment.
def Dispatches (s : Server) (steps : List Step) : Prop :=
  ∀ x ∈ steps, x = .take ∨ (∃ write, x = .keepalive write) ∨
    ∃ write, x = .dispatch { lookup := s.lookup, now := s.now, time := s.now, write }

-- What becomes of a server when its hub takes such steps and nobody else does anything.
def Runs (s next : Server) : Prop :=
  ∃ steps connections sent dispatcher, s.Dispatches steps ∧
    next = { s with connections, sent, dispatcher, hub := s.hub.run steps }

theorem Runs.refl (s : Server) : s.Runs s :=
  ⟨[], s.connections, s.sent, s.dispatcher, by simp [Dispatches], rfl⟩

theorem Runs.trans {s next last : Server} (h : s.Runs next) (h' : next.Runs last) :
    s.Runs last := by
  obtain ⟨steps, connections, sent, dispatcher, hsteps, rfl⟩ := h
  obtain ⟨steps', connections', sent', dispatcher', hsteps', rfl⟩ := h'
  refine ⟨steps ++ steps', connections', sent', dispatcher', fun x hx => ?_, ?_⟩
  · rcases List.mem_append.mp hx with hx | hx
    · exact hsteps x hx
    · exact hsteps' x hx
  · rw [Hub.run_append]

theorem announceAll_run {s : Server} {cs : List Change} (hpending : s.hub.pending = [])
    (hidle : (s.announceAll cs).dispatcher.stage.isIdle = true) :
    Runs { s with hub := { s.hub with pending := cs } } (s.announceAll cs) ∧
      (s.announceAll cs).hub.pending = [] := by
  induction cs generalizing s with
  | nil =>
    have heq : s = { s with hub := { s.hub with pending := [] } } := by rw [← hpending]
    rw [← heq]
    exact ⟨.refl s, hpending⟩
  | cons c rest ih =>
    simp only [announceAll] at hidle ⊢
    by_cases hannounced : (s.announce c).dispatcher.stage.isIdle = true
    · rw [if_pos hannounced] at hidle ⊢
      obtain ⟨write, connections, sent, dispatcher, hannounce⟩ := announce_eq hannounced
      have hnone : (s.announce c).hub.pending = [] := by
        rw [hannounce]
        exact (Hub.Dispatch.result_pending { hub := s.hub, change := c, occasion :=
          { lookup := s.lookup, now := s.now, time := s.now, write } }).trans hpending
      obtain ⟨hrest, hdone⟩ := ih hnone hidle
      refine ⟨Runs.trans ⟨[.dispatch { lookup := s.lookup, now := s.now, time := s.now, write }],
        connections, sent, dispatcher, ?_, ?_⟩ hrest, hdone⟩
      · intro x hx
        exact .inr (.inr ⟨write, List.mem_singleton.mp hx⟩)
      · rw [hannounce, Hub.run_cons, Hub.run_nil, perform_dispatch_eq]
    · rw [if_neg hannounced] at hidle
      exact absurd hidle hannounced

theorem announcePending_run {s : Server}
    (hidle : s.announcePending.dispatcher.stage.isIdle = true) :
    s.Runs s.announcePending ∧ s.announcePending.hub.pending = [] :=
  announceAll_run (s := { s with hub := { s.hub with pending := [] } }) rfl hidle

theorem take_run {s : Server} {hub : Hub} (hpending : s.hub.pending = [])
    (hnext : s.hub.nextBatch? = some hub) : s.Runs { s with hub } := by
  refine ⟨[.take], s.connections, s.sent, s.dispatcher, ?_, ?_⟩
  · intro x hx
    exact .inl (List.mem_singleton.mp hx)
  · rw [Hub.run_cons, Hub.run_nil]
    simp [Hub.perform, hpending, hnext]

theorem ping_run {s : Server} (hpending : s.hub.pending = [])
    (hidle : s.ping.dispatcher.stage.isIdle = true) :
    s.Runs s.ping ∧ s.ping.hub.pending = [] := by
  obtain ⟨write, connections, sent, dispatcher, hping⟩ := ping_eq hidle
  refine ⟨⟨[.keepalive write], connections, sent, dispatcher, ?_, hping⟩, ?_⟩
  · intro x hx
    exact .inr (.inl ⟨write, List.mem_singleton.mp hx⟩)
  · rw [hping, Hub.keepalive_eq]
    exact hpending

theorem isIdle_of_work {s : Server} {room : Nat}
    (hidle : (s.work room).dispatcher.stage.isIdle = true) :
    s.dispatcher.stage.isIdle = true := by
  cases room with
  | zero => exact hidle
  | succ room =>
    cases hs : s.dispatcher.stage.isIdle with
    | true => rfl
    | false =>
      rw [work, if_pos (by simp [hs]), hs] at hidle
      exact hidle

theorem work_run {s : Server} {room : Nat} (hpending : s.hub.pending = [])
    (hidle : (s.work room).dispatcher.stage.isIdle = true) :
    s.Runs (s.work room) ∧ (s.work room).hub.pending = [] := by
  induction room generalizing s with
  | zero => exact ⟨.refl s, hpending⟩
  | succ room ih =>
    have hready := isIdle_of_work hidle
    simp only [work, hready, Bool.not_true] at hidle ⊢
    cases hnext : s.hub.nextBatch? with
    | some hub =>
      simp only [hnext] at hidle ⊢
      obtain ⟨hannounce, hnone⟩ := announcePending_run (isIdle_of_work hidle)
      obtain ⟨hrest, hdone⟩ := ih hnone hidle
      exact ⟨(take_run hpending hnext).trans (hannounce.trans hrest), hdone⟩
    | none =>
      simp only [hnext] at hidle ⊢
      by_cases hdue : s.dispatcher.ticker.isDue s.now = true
      · simp only [hdue] at hidle ⊢
        obtain ⟨hping, hnone⟩ := ping_run hpending (isIdle_of_work hidle)
        obtain ⟨hrest, hdone⟩ := ih hnone hidle
        exact ⟨hping.trans hrest, hdone⟩
      · simp only [hdue] at hidle ⊢
        exact ⟨.refl s, hpending⟩

-- A turn of the dispatcher that begins and ends between two rounds is a run of the hub.
theorem proceed_run {s : Server} (hready : s.dispatcher.stage.isIdle = true)
    (hidle : s.proceed.dispatcher.stage.isIdle = true) :
    s.Runs s.proceed ∧ s.proceed.hub.pending = [] := by
  rw [proceed, if_pos hready] at hidle ⊢
  obtain ⟨hannounce, hnone⟩ := announcePending_run (isIdle_of_work hidle)
  obtain ⟨hwork, hdone⟩ := work_run hnone hidle
  exact ⟨hannounce.trans hwork, hdone⟩

end ChatRelay.Server

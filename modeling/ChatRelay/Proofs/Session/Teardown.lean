import ChatRelay.Proofs.Connection.Line
import ChatRelay.Proofs.Session.Transcript

namespace ChatRelay

namespace Session

-- Whether a session has not put its connection into the hub yet.
def Stage.isEarly : Stage → Bool
  | fresh | greeting => true
  | reading | replying | closing | ended => false

def Step.closes (s : Step) : Bool := s.write = some .close

end Session

namespace Talk

-- The step that a session takes with a move of its own.
def step? (t : Talk) : Move → Option Session.Step
  | .other _ => none
  | .greet => if t.stage = .fresh then some (Session.greet t.relay.hub) else none
  | .hear m => if t.stage = .reading then some (Session.hear t.id m t.relay.hub) else none
  | .written ok =>
    if t.writing.isSome then some (Session.written t.id ok t.stage t.relay.hub) else none

theorem step?_cases {t : Talk} {m : Move} {step : Session.Step} (hstep : t.step? m = some step) :
    (t.stage = .fresh ∧ step = Session.greet t.relay.hub) ∨
      (∃ x, t.stage = .reading ∧ step = Session.hear t.id x t.relay.hub) ∨
      ∃ ok, step = Session.written t.id ok t.stage t.relay.hub := by
  cases m with
  | other a => cases hstep
  | greet =>
    simp only [step?, Option.ite_none_right_eq_some, Option.some.injEq] at hstep
    exact .inl ⟨hstep.1, hstep.2.symm⟩
  | hear m =>
    simp only [step?, Option.ite_none_right_eq_some, Option.some.injEq] at hstep
    exact .inr (.inl ⟨m, hstep.1, hstep.2.symm⟩)
  | written ok =>
    simp only [step?, Option.ite_none_right_eq_some, Option.some.injEq] at hstep
    exact .inr (.inr ⟨ok, hstep.2.symm⟩)

-- How many closes are still going to be put on the line: there is one for a connection in the hub,
-- and one for a connection that is not there yet.
def owed (t : Talk) : Nat := t.subscription?.isSome.toNat + t.stage.isEarly.toNat

structure Tidy (t : Talk) : Prop where
  owed : t.owed ≤ 1
  gone : t.stage = .closing ∨ t.stage = .ended → t.subscription? = none

-- A session that takes its connection out of the hub closes it, and one that finds it taken out does
-- not.
theorem Tidy.leave {t : Talk} (hstage : t.stage = .reading ∨ t.stage = .replying) :
    (t.take (Session.leave t.id t.relay.hub)).Tidy ∧
      (t.take (Session.leave t.id t.relay.hub)).owed +
        (Session.leave t.id t.relay.hub).closes.toNat = t.owed := by
  have hgone := t.leave_subscription?
  have hearly : (Session.leave t.id t.relay.hub).stage.isEarly = false := by
    unfold Session.leave
    split <;> rfl
  have hnext : (t.take (Session.leave t.id t.relay.hub)).owed = 0 := by
    rw [Talk.owed, hgone, take, hearly]
    rfl
  have hcloses : (Session.leave t.id t.relay.hub).closes = t.subscription?.isSome := by
    unfold Session.leave
    split <;> next heq => exact (congrArg Prod.snd heq).symm
  have hbefore : t.owed = t.subscription?.isSome.toNat := by
    rcases hstage with h | h <;> rw [Talk.owed, h] <;> rfl
  exact ⟨⟨by omega, fun _ => hgone⟩, by rw [hnext, hcloses, hbefore, Nat.zero_add]⟩

-- A step that neither closes nor touches what is owed.
theorem Tidy.quiet {t : Talk} (ht : t.Tidy) {step : Session.Step} (hcloses : step.closes = false)
    (hheld : (t.take step).subscription?.isSome = t.subscription?.isSome)
    (hearly : step.stage.isEarly = t.stage.isEarly)
    (hgone : step.stage = .closing ∨ step.stage = .ended → t.stage = .closing ∨ t.stage = .ended) :
    (t.take step).Tidy ∧ (t.take step).owed + step.closes.toNat = t.owed := by
  have howed : (t.take step).owed = t.owed := by
    rw [Talk.owed, Talk.owed, hheld, take, hearly]
  refine ⟨⟨howed.trans_le ht.owed, fun h => ?_⟩, by rw [howed, hcloses]; rfl⟩
  rw [ht.gone (hgone h)] at hheld
  simpa using hheld

theorem Tidy.hear {t : Talk} (ht : t.Tidy) (hstage : t.stage = .reading) (m : Inbound) :
    (t.take (Session.hear t.id m t.relay.hub)).Tidy ∧
      (t.take (Session.hear t.id m t.relay.hub)).owed +
        (Session.hear t.id m t.relay.hub).closes.toNat = t.owed := by
  cases hm : m.isLast with
  | true =>
    rw [Session.hear_last hm]
    exact Tidy.leave (.inl hstage)
  | false =>
    rw [Session.hear_eq hm]
    refine ht.quiet ?_ ?_ ?_ ?_
    · cases m.reply? <;> simp [Session.Step.closes, Reply.frame]
    · cases m.subscription? with
      | none => rfl
      | some asked =>
        have hset := t.relay.hub.registry.subscription?_setSubscription t.id t.id asked
        rw [if_pos rfl] at hset
        refine (congrArg Option.isSome hset).trans ?_
        simp [subscription?]
    · cases m.reply? <;> rw [hstage] <;> rfl
    · cases m.reply? <;> simp

theorem Tidy.written {t : Talk} (ht : t.Tidy) (ok : Bool) :
    (t.take (Session.written t.id ok t.stage t.relay.hub)).Tidy ∧
      (t.take (Session.written t.id ok t.stage t.relay.hub)).owed +
        (Session.written t.id ok t.stage t.relay.hub).closes.toNat = t.owed := by
  cases hstage : t.stage with
  | greeting =>
    have hbefore : t.subscription? = none := by
      have howed := ht.owed
      rw [Talk.owed, hstage] at howed
      cases hheld : t.subscription? with
      | none => rfl
      | some held => simp [hheld, Session.Stage.isEarly] at howed
    have howed : t.owed = 1 := by
      rw [Talk.owed, hbefore, hstage]
      rfl
    cases ok with
    | true =>
      have hregistered := t.relay.hub.registry.subscription?_register t.id t.id
      rw [if_pos rfl] at hregistered
      have hnext : (t.take (Session.written t.id true .greeting t.relay.hub)).owed = 1 :=
        congrArg (fun held => held.isSome.toNat + 0) hregistered
      refine ⟨⟨hnext.le, ?_⟩, by rw [hnext, howed]; rfl⟩
      rintro (h | h) <;> cases h
    | false =>
      have hgone : (t.take (Session.written t.id false .greeting t.relay.hub)).subscription? = none :=
        hbefore
      have hnext : (t.take (Session.written t.id false .greeting t.relay.hub)).owed = 0 := by
        rw [Talk.owed, hgone]
        rfl
      exact ⟨⟨by omega, fun _ => hgone⟩, by rw [hnext, howed]; rfl⟩
  | replying =>
    cases ok with
    | true => exact ht.quiet rfl rfl (by rw [hstage]; rfl) (by rintro (h | h) <;> cases h)
    | false => exact Tidy.leave (.inr hstage)
  | closing => exact ht.quiet rfl rfl (by rw [hstage]; rfl) fun _ => .inl hstage
  | fresh | reading | ended =>
    rw [Session.written_of_not_isWriting rfl]
    exact ht.quiet rfl rfl (by rw [hstage]) fun h => by rwa [hstage]

-- When the session goes on, what is owed is still owed, or was put on the line.
theorem Tidy.step {t : Talk} (ht : t.Tidy) {m : Move} {step : Session.Step}
    (hstep : t.step? m = some step) :
    (t.take step).Tidy ∧ (t.take step).owed + step.closes.toNat = t.owed := by
  rcases step?_cases hstep with ⟨hstage, rfl⟩ | ⟨m, hstage, rfl⟩ | ⟨ok, rfl⟩
  · refine ht.quiet ?_ rfl (by rw [hstage]; rfl) (by rintro (h | h) <;> cases h)
    simp [Session.Step.closes, Session.greet, Reply.frame]
  · exact ht.hear hstage m
  · exact ht.written ok

-- Somebody else can take over what is owed for a connection in the hub, and nothing more.
theorem Tidy.other {t : Talk} (ht : t.Tidy) {a : Relay.Action}
    (hforeign : (Move.other a).isForeign t.id = true) :
    (t.perform (.other a)).Tidy ∧
      (t.perform (.other a)).owed + (t.drops (.other a)).toNat = t.owed := by
  have howed : (t.perform (.other a)).owed + (t.drops (.other a)).toNat = t.owed := by
    have hstage : (t.perform (.other a)).stage = t.stage := rfl
    simp only [Talk.owed, drops, hstage]
    rcases perform_other hforeign with hsame | hgone
    · rw [hsame]
      cases t.subscription? <;> simp
    · rw [hgone]
      cases t.subscription? <;> simp [Nat.add_comm]
  refine ⟨⟨by have := ht.owed; omega, fun h => ?_⟩, howed⟩
  rcases perform_other hforeign with hsame | hgone
  · exact hsame.trans (ht.gone h)
  · exact hgone

end Talk

def Write.isClose (w : Write) : Bool := w.frame = .close

-- Who waits for the close of a connection that this takes out of the hub.
def Relay.Action.closer : Relay.Action → Writer
  | step s => if s.isDispatching then .dispatch else .nobody
  | start | fail _ | shutdown => .nobody

-- A session and its line, next to everybody who may take the connection out of the hub.
structure Teardown where
  talk : Talk
  line : Line := {}
  -- What the sink was given, but for what it has not finished.
  given : List Write := []
  -- What was given up before the sink was given it.
  givenUp : List Write := []

namespace Teardown

inductive Move where
  -- The session goes on, or somebody else does something at the hub.
  | talk (m : Talk.Move)
  -- The dispatcher could not write to the connection, and takes it out.
  | drop
  -- Somebody writes something else to the connection.
  | write (w : Write)
  | expire
  | setSink (sink : Sink)

def new (id : ConnectionId) (relay : Relay) : Teardown := { talk := { id, relay } }

def withTalk (s : Teardown) (t : Talk) : Teardown := { s with talk := t }

def onLine (s : Teardown) (r : Line × List Write.Outcome) : Teardown :=
  { s with line := r.1, given := s.given ++ r.2.map (·.write) }

def put (s : Teardown) (now : Nat) (writer : Writer) (frame : Frame) : Teardown :=
  s.onLine (s.line.put now
    { writer, frame, limit := s.talk.relay.hub.settings.writeTimeout })

-- Nobody goes on with what the dispatcher was writing, or waited to write.
def stop (s : Teardown) (now : Nat) : Teardown :=
  let isDispatch : Write → Bool := (·.writer = .dispatch)
  { { s with given := s.given ++ s.line.begun.filter isDispatch }.onLine
      (s.line.abandon now .dispatch) with
    givenUp := s.givenUp ++ s.line.waiting.filter isDispatch }

-- The shutdown of a hub that runs stops its dispatcher first, whatever it waits for.
def interrupt (s : Teardown) (now : Nat) (a : Relay.Action) : Teardown :=
  if a.isShutdown && s.talk.relay.hub.isRunning then s.stop now else s

-- A session is not told that a write of its own is over before it is, and there is a dispatcher only
-- while the hub runs.
def perform (s : Teardown) (now : Nat) : Move → Teardown
  | .talk (.other a) =>
    let s := s.interrupt now a
    let next := s.withTalk (s.talk.perform (.other a))
    if s.talk.drops (.other a) then next.put now a.closer .close else next
  | .talk m =>
    if m.isWritten && s.line.queue.any (·.writer = .session) then s
    else
      match s.talk.step? m with
      | none => s
      | some step =>
        let next := s.withTalk (s.talk.take step)
        step.write.elim next (next.put now .session)
  | .drop =>
    if s.talk.relay.hub.isRunning then
      let (hub, isTaken) := s.talk.relay.hub.drop s.talk.id
      let next := s.withTalk { s.talk with relay := { s.talk.relay with hub } }
      if isTaken then next.put now .dispatch .close else next
    else s
  | .write w => if w.isClose then s else s.onLine (s.line.put now w)
  | .expire => s.onLine (s.line.expire now)
  | .setSink sink => { s with line := { s.line with sink } }

def run (s : Teardown) (moves : List (Nat × Move)) : Teardown :=
  moves.foldl (fun s m => s.perform m.1 m.2) s

theorem run_cons (s : Teardown) (m : Nat × Move) (moves : List (Nat × Move)) :
    s.run (m :: moves) = (s.perform m.1 m.2).run moves := rfl

@[simp] theorem withTalk_talk (s : Teardown) (t : Talk) : (s.withTalk t).talk = t := rfl

@[simp] theorem onLine_givenUp (s : Teardown) (r : Line × List Write.Outcome) :
    (s.onLine r).givenUp = s.givenUp := rfl

@[simp] theorem put_talk (s : Teardown) (now : Nat) (writer : Writer) (frame : Frame) :
    (s.put now writer frame).talk = s.talk := rfl

@[simp] theorem stop_talk (s : Teardown) (now : Nat) : (s.stop now).talk = s.talk := rfl

@[simp] theorem interrupt_talk (s : Teardown) (now : Nat) (a : Relay.Action) :
    (s.interrupt now a).talk = s.talk := by
  unfold interrupt
  split <;> rfl

-- How often the sink was told to close.
def closed (s : Teardown) : Nat := (s.given ++ s.line.begun).countP Write.isClose

-- How many closes were put on the line.
def closes (s : Teardown) : Nat := (s.given ++ s.line.queue ++ s.givenUp).countP Write.isClose

theorem closes_eq (s : Teardown) :
    s.closes = s.given.countP Write.isClose + s.line.queue.countP Write.isClose +
      s.givenUp.countP Write.isClose := by
  rw [closes, List.countP_append, List.countP_append]

theorem closes_eq_closed (s : Teardown) :
    s.closes = s.closed + s.line.waiting.countP Write.isClose +
      s.givenUp.countP Write.isClose := by
  simp only [closes, closed, Line.queue, List.countP_append, Nat.add_assoc]

@[simp] theorem closes_withTalk (s : Teardown) (t : Talk) : (s.withTalk t).closes = s.closes := rfl

-- What becomes of a line, where nothing is lost.
theorem closes_onLine (s : Teardown) {r : Line × List Write.Outcome} {ws : List Write}
    (hr : r.2.map (·.write) ++ r.1.queue = ws) :
    (s.onLine r).closes = s.given.countP Write.isClose + ws.countP Write.isClose +
      s.givenUp.countP Write.isClose := by
  rw [closes_eq, ← hr, List.countP_append]
  simp only [onLine, List.countP_append]
  omega

theorem closes_write (s : Teardown) (now : Nat) (w : Write) :
    (s.onLine (s.line.put now w)).closes = s.closes + w.isClose.toNat := by
  rw [s.closes_onLine (s.line.put_queue now w), closes_eq, List.countP_append, List.countP_singleton]
  cases w.isClose <;> simp
  omega

theorem closes_put (s : Teardown) (now : Nat) (writer : Writer) (frame : Frame) :
    (s.put now writer frame).closes = s.closes + (decide (frame = .close)).toNat :=
  s.closes_write now _

-- Whoever is stopped, each of the writes was given to the sink, is on the line or was given up.
theorem closes_stop (s : Teardown) (now : Nat) : (s.stop now).closes = s.closes := by
  have hsplit := (List.filter_append_perm (fun w : Write => decide (w.writer = .dispatch))
    s.line.queue).countP_eq Write.isClose
  have hline := closes_onLine
    { s with given := s.given ++ s.line.begun.filter (·.writer = .dispatch) }
    (s.line.abandon_queue now .dispatch)
  simp only [stop, closes_eq, onLine_givenUp, Line.queue, List.filter_append, List.countP_append,
    ne_eq, decide_not] at hsplit hline ⊢
  omega

-- One close was put on the line, or it is still owed.
structure Accounted (s : Teardown) : Prop where
  tidy : s.talk.Tidy
  total : s.talk.owed + s.closes = 1

theorem Accounted.interrupt {s : Teardown} (hs : s.Accounted) (now : Nat) (a : Relay.Action) :
    (s.interrupt now a).Accounted := by
  unfold Teardown.interrupt
  split
  · exact ⟨hs.tidy, by rw [stop_talk, closes_stop, hs.total]⟩
  · exact hs

theorem Accounted.own {s : Teardown} (hs : s.Accounted) (now : Nat) {m : Talk.Move}
    (hown : m.isOwn = true) : (s.perform now (.talk m)).Accounted := by
  have hperform : s.perform now (.talk m) =
      if m.isWritten && s.line.queue.any (·.writer = .session) then s
      else
        match s.talk.step? m with
        | none => s
        | some step =>
          step.write.elim (s.withTalk (s.talk.take step))
            ((s.withTalk (s.talk.take step)).put now .session) := by
    cases m with
    | other a => cases hown
    | greet | hear | written => rfl
  rw [hperform]
  split
  · exact hs
  · split
    · exact hs
    · next step hstep =>
      obtain ⟨htidy, howed⟩ := hs.tidy.step hstep
      have htotal := hs.total
      have hcloses : step.closes = decide (step.write = some .close) := rfl
      cases hwrite : step.write with
      | none =>
        rw [hcloses, hwrite] at howed
        exact ⟨htidy, by rw [← htotal, ← howed]; rfl⟩
      | some frame =>
        simp only [hcloses, hwrite, Option.some.injEq] at howed
        refine ⟨htidy, ?_⟩
        rw [Option.elim_some, put_talk, withTalk_talk, closes_put, closes_withTalk]
        omega

theorem Accounted.taken {s : Teardown} (hs : s.Accounted) (now : Nat) (writer : Writer)
    {a : Relay.Action} (hforeign : (Talk.Move.other a).isForeign s.talk.id = true) :
    (if s.talk.drops (.other a) then
      (s.withTalk (s.talk.perform (.other a))).put now writer .close
      else s.withTalk (s.talk.perform (.other a))).Accounted := by
  obtain ⟨htidy, howed⟩ := hs.tidy.other hforeign
  have htotal := hs.total
  cases hdrops : s.talk.drops (.other a) with
  | true =>
    refine ⟨htidy, ?_⟩
    rw [hdrops, Bool.toNat_true] at howed
    rw [if_pos rfl, put_talk, withTalk_talk, closes_put, closes_withTalk]
    simp only [decide_true, Bool.toNat_true]
    omega
  | false =>
    rw [hdrops, Bool.toNat_false] at howed
    exact ⟨htidy, by rw [← htotal, ← howed]; rfl⟩

-- A drop by the dispatcher does to the hub what a disconnect does.
theorem perform_drop {s : Teardown} (hrunning : s.talk.relay.hub.isRunning = true) (now : Nat) :
    s.perform now .drop =
      if s.talk.drops (.other (.step (.disconnect s.talk.id))) then
        (s.withTalk (s.talk.perform (.other (.step (.disconnect s.talk.id))))).put now .dispatch .close
      else s.withTalk (s.talk.perform (.other (.step (.disconnect s.talk.id)))) := by
  have hnext : s.talk.perform (.other (.step (.disconnect s.talk.id))) =
      { s.talk with
        relay := { s.talk.relay with hub := (s.talk.relay.hub.drop s.talk.id).1 } } := by
    simp [Talk.perform, Relay.perform, Relay.step, Hub.Step.isDispatching, Hub.perform_disconnect,
      Hub.drop]
  have hgone := s.talk.relay.hub.registry.subscription?_unregister s.talk.id s.talk.id
  rw [if_pos rfl] at hgone
  have hdrops : s.talk.drops (.other (.step (.disconnect s.talk.id))) =
      (s.talk.relay.hub.drop s.talk.id).2 := by
    have hnone : (s.talk.perform (.other (.step (.disconnect s.talk.id)))).subscription? = none := by
      rw [hnext]
      exact hgone
    rw [Talk.drops, hnone, Option.isNone_none, Bool.and_true]
    rfl
  rw [hnext, hdrops, perform, if_pos hrunning]

theorem Accounted.perform {s : Teardown} (hs : s.Accounted) (now : Nat) {m : Move}
    (hforeign : ∀ t, m = .talk t → t.isForeign s.talk.id = true) :
    (s.perform now m).Accounted := by
  cases m with
  | talk m =>
    cases hown : m.isOwn with
    | true => exact hs.own now hown
    | false =>
      obtain ⟨a, rfl⟩ : ∃ a, m = .other a := by cases m <;> first | exact ⟨_, rfl⟩ | cases hown
      refine (hs.interrupt now a).taken now a.closer ?_
      rw [interrupt_talk]
      exact hforeign _ rfl
  | drop =>
    by_cases hrunning : s.talk.relay.hub.isRunning = true
    · rw [perform_drop hrunning]
      exact hs.taken now .dispatch rfl
    · rwa [Teardown.perform, if_neg hrunning]
  | write w =>
    simp only [Teardown.perform]
    split
    · exact hs
    · next hw =>
      refine ⟨hs.tidy, ?_⟩
      rw [closes_write, Bool.eq_false_iff.mpr hw]
      exact hs.total
  | expire =>
    refine ⟨hs.tidy, ?_⟩
    have hline := s.closes_onLine (s.line.expire_queue now)
    rw [← closes_eq] at hline
    rw [← hs.total, Teardown.perform, hline]
    rfl
  | setSink sink => exact ⟨hs.tidy, hs.total⟩

@[simp] theorem perform_id (s : Teardown) (now : Nat) (m : Move) :
    (s.perform now m).talk.id = s.talk.id := by
  cases m with
  | talk m =>
    cases m with
    | other a =>
      simp only [perform]
      split <;> simp
    | greet | hear | written =>
      simp only [perform]
      split
      · rfl
      · split
        · rfl
        · next step _ => cases step.write <;> rfl
  | drop =>
    simp only [perform]
    split
    · split <;> rfl
    · rfl
  | write =>
    simp only [perform]
    split <;> rfl
  | expire | setSink => rfl

theorem run_id (s : Teardown) (moves : List (Nat × Move)) : (s.run moves).talk.id = s.talk.id := by
  induction moves generalizing s with
  | nil => rfl
  | cons m moves ih => rw [run_cons, ih, perform_id]

theorem Accounted.run {s : Teardown} (hs : s.Accounted) {moves : List (Nat × Move)}
    (hforeign : ∀ now m, (now, .talk m) ∈ moves → m.isForeign s.talk.id = true) :
    (s.run moves).Accounted := by
  induction moves generalizing s with
  | nil => exact hs
  | cons m moves ih =>
    obtain ⟨now, m⟩ := m
    have hfirst : ∀ t, m = .talk t → t.isForeign s.talk.id = true := by
      rintro t rfl
      exact hforeign now t List.mem_cons_self
    refine ih (hs.perform now hfirst) fun now' t ht => ?_
    rw [perform_id]
    exact hforeign now' t (List.mem_cons_of_mem _ ht)

theorem accounted_new {id : ConnectionId} {relay : Relay}
    (hfresh : relay.hub.registry.subscription? id = none) : (new id relay).Accounted := by
  have howed : (new id relay).talk.owed = 1 := by
    rw [Talk.owed, show (new id relay).talk.subscription? = none from hfresh]
    rfl
  exact ⟨⟨howed.le, by rintro (h | h) <;> cases h⟩, by rw [howed]; rfl⟩

-- Whether a move is a shutdown that finds the dispatcher waiting to close the connection, which it
-- took out before.
def cuts (s : Teardown) : Move → Bool
  | .talk (.other .shutdown) =>
    s.talk.relay.hub.isRunning &&
      s.line.waiting.any fun w => decide (w.writer = .dispatch) && w.isClose
  | _ => false

def isCut (s : Teardown) : List (Nat × Move) → Bool
  | [] => false
  | (now, m) :: rest => s.cuts m || isCut (s.perform now m) rest

theorem interrupt_givenUp (s : Teardown) (now : Nat) (a : Relay.Action) :
    (s.interrupt now a).givenUp.any Write.isClose =
      (s.givenUp.any Write.isClose || s.cuts (.talk (.other a))) := by
  unfold interrupt
  cases a with
  | start | fail | step => simp [Relay.Action.isShutdown, cuts]
  | shutdown =>
    cases hrunning : s.talk.relay.hub.isRunning with
    | true => simp [Relay.Action.isShutdown, cuts, hrunning, stop]
    | false => simp [Relay.Action.isShutdown, cuts, hrunning]

theorem perform_givenUp (s : Teardown) (now : Nat) (m : Move) :
    (s.perform now m).givenUp.any Write.isClose =
      (s.givenUp.any Write.isClose || s.cuts m) := by
  cases m with
  | talk m =>
    cases m with
    | other a =>
      rw [← interrupt_givenUp s now a]
      simp only [perform]
      split <;> rfl
    | greet | hear | written =>
      simp only [perform, cuts, Bool.or_false]
      split
      · rfl
      · split
        · rfl
        · next step _ => cases step.write <;> rfl
  | drop =>
    simp only [perform, cuts, Bool.or_false]
    split
    · split <;> rfl
    · rfl
  | write =>
    simp only [perform, cuts, Bool.or_false]
    split <;> rfl
  | expire | setSink => simp [perform, cuts, onLine]

theorem run_givenUp (s : Teardown) (moves : List (Nat × Move)) :
    (s.run moves).givenUp.any Write.isClose =
      (s.givenUp.any Write.isClose || s.isCut moves) := by
  induction moves generalizing s with
  | nil => simp [run, isCut]
  | cons m moves ih => rw [run_cons, ih, perform_givenUp, isCut, Bool.or_assoc]

-- For every order of what the client says, how the writes on the line end and when, the drops by the
-- dispatcher, the disconnects and the shutdown of the hub. The sink is never told twice to close. When
-- the session is over and no close waits on the line, the connection is not in the hub, and the sink
-- was told to close exactly if no shutdown cut short a drop that waited to do so. It does not matter
-- whether the client was ever greeted.
theorem closed_once_iff {id : ConnectionId} {relay : Relay} {moves : List (Nat × Move)}
    {s : Teardown} (hs : s = (new id relay).run moves)
    (hfresh : relay.hub.registry.subscription? id = none)
    (hforeign : ∀ now m, (now, .talk m) ∈ moves → m.isForeign id = true) :
    s.closed ≤ 1 ∧
      (s.talk.stage = .ended → (∀ w ∈ s.line.waiting, w.isClose = false) →
        s.talk.relay.hub.registry.contains id = false ∧
          (s.closed = 1 ↔ (new id relay).isCut moves = false)) := by
  obtain ⟨htidy, htotal⟩ : s.Accounted := hs ▸ (accounted_new hfresh).run hforeign
  have hcut : s.givenUp.any Write.isClose = (new id relay).isCut moves :=
    hs ▸ (new id relay).run_givenUp moves
  rw [closes_eq_closed] at htotal
  refine ⟨by omega, fun hstage hwaiting => ?_⟩
  have hnone : s.line.waiting.countP Write.isClose = 0 :=
    List.countP_eq_zero.mpr fun w hw => by simp [hwaiting w hw]
  have hgone := htidy.gone (.inr hstage)
  have howed : s.talk.owed = 0 := by
    rw [Talk.owed, hgone, hstage]
    rfl
  have hid : s.talk.id = id := by
    rw [hs, run_id]
    rfl
  rw [Talk.subscription?, hid] at hgone
  refine ⟨by rw [Registry.contains, hgone]; rfl, ?_⟩
  rw [← hcut, List.any_eq_false]
  have hgivenUp : s.givenUp.countP Write.isClose = 0 ↔ ∀ w ∈ s.givenUp, ¬w.isClose = true :=
    List.countP_eq_zero
  rw [← hgivenUp]
  omega

-- A ping to the connection fails. The dispatcher goes on when its pings to others are over; meanwhile
-- an answer of the session stalls. The dispatcher takes the connection out, and waits to close it.
def crossing : List (Nat × Move) :=
  [(0, .talk (.other .start)), (0, .talk .greet), (0, .talk (.written true)),
    (30000, .setSink { write := .fails }),
    (30000, .write { writer := .dispatch, frame := .ping, limit := 5000 }),
    (30000, .setSink { write := .stalls }), (30000, .talk (.hear (.binary [0]))), (31000, .drop)]

-- The time of the answer is up, and the session hears that it failed.
def lapse : List (Nat × Move) := [(35000, .expire), (35000, .talk (.written false))]

def shutdownAt (now : Nat) : List (Nat × Move) := [(now, .talk (.other .shutdown))]

-- The hub is shut down after the close in the one run, and before it in the other.
theorem crossing_closed_once_iff :
    (Relay.ofSettings {}).hub.registry.subscription? ⟨1⟩ = none ∧
      (∀ moves ∈ [crossing ++ lapse ++ shutdownAt 35000, crossing ++ shutdownAt 32000 ++ lapse],
        (∀ now m, (now, .talk m) ∈ moves → m.isForeign ⟨1⟩ = true) ∧
          ((new ⟨1⟩ (.ofSettings {})).run moves).talk.stage = .ended ∧
          ((new ⟨1⟩ (.ofSettings {})).run moves).talk.relay.hub.registry.contains ⟨1⟩ = false ∧
          (((new ⟨1⟩ (.ofSettings {})).run moves).closed = 1 ↔
            (new ⟨1⟩ (.ofSettings {})).isCut moves = false)) ∧
      (new ⟨1⟩ (.ofSettings {})).isCut (crossing ++ lapse ++ shutdownAt 35000) = false ∧
      (new ⟨1⟩ (.ofSettings {})).isCut (crossing ++ shutdownAt 32000 ++ lapse) = true := by
  have hfresh : (Relay.ofSettings {}).hub.registry.subscription? ⟨1⟩ = none := rfl
  refine ⟨hfresh, fun moves hmoves => ?_, rfl, rfl⟩
  have hforeign : ∀ now m, (now, .talk m) ∈ moves → m.isForeign ⟨1⟩ = true := by
    revert moves
    simp [crossing, lapse, shutdownAt, Talk.Move.isForeign, or_imp, forall_and]
  have hended : ((new ⟨1⟩ (.ofSettings {})).run moves).talk.stage = .ended := by
    rcases List.mem_pair.mp hmoves with rfl | rfl <;> rfl
  have hwaiting : ((new ⟨1⟩ (.ofSettings {})).run moves).line.waiting = [] := by
    rcases List.mem_pair.mp hmoves with rfl | rfl <;> rfl
  obtain ⟨-, hover⟩ := closed_once_iff rfl hfresh hforeign
  obtain ⟨hgone, honce⟩ := hover hended fun w hw => by simp [hwaiting] at hw
  exact ⟨hforeign, hended, hgone, honce⟩

-- A session is over, no drop is under way any more, and the sink was never told to close.
theorem crossing_never_closed :
    ¬∀ (id : ConnectionId) (relay : Relay) (moves : List (Nat × Move)),
      relay.hub.registry.subscription? id = none →
      (∀ now m, (now, .talk m) ∈ moves → m.isForeign id = true) →
      ((new id relay).run moves).talk.stage = .ended →
      ((new id relay).run moves).line.queue = [] →
      ((new id relay).run moves).talk.relay.hub.registry.contains id = false ∧
        ((new id relay).run moves).closed = 1 := by
  intro hclaim
  have hclosed := hclaim ⟨1⟩ (.ofSettings {}) (crossing ++ shutdownAt 32000 ++ lapse) rfl
    (by simp [crossing, lapse, shutdownAt, Talk.Move.isForeign, or_imp, forall_and]) rfl rfl
  exact absurd hclosed.2 (by decide)

end Teardown

end ChatRelay

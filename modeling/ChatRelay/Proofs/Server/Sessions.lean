import ChatRelay.Proofs.Server.Rounds
import ChatRelay.Proofs.Session.Run

namespace ChatRelay

namespace Server

-- The hub of a server on its source and its host. When the dispatcher gets its first turn the server
-- alone does not tell.
def relay (first : Nat) (s : Server) : Relay :=
  { hub := s.hub, source := s.source, host := s.host, firstTurn := first }

variable {first : Nat}

theorem wake_relay (s : Server) (w : Worker) : (s.wake w).relay first = s.relay first := by
  unfold wake
  split <;> rfl

theorem write_relay (s : Server) (writer : Writer) (id : ConnectionId) (frame : Frame) :
    (s.write writer id frame).1.relay first = s.relay first := by
  obtain ⟨connections, sent, outcome, hwrite⟩ := s.write_eq writer id frame
  rw [hwrite]
  rfl

theorem foldl_relay {α : Type} {f : Server → α → Server}
    (hf : ∀ s a, (f s a).relay first = s.relay first) (s : Server) (as : List α) :
    (as.foldl f s).relay first = s.relay first := by
  induction as generalizing s with
  | nil => rfl
  | cons a as ih => rw [List.foldl_cons, ih, hf]

theorem report_relay (id : ConnectionId) (s : Server) (o : Write.Outcome) :
    (report id s o).relay first = s.relay first := by
  obtain ⟨sent, hnote⟩ : ∃ sent, note id s o = { s with sent } := s.foldl_note id [o]
  simp only [report, hnote]
  split
  · rfl
  · exact wake_relay _ _
  · exact wake_relay _ _

theorem onLine_relay (s : Server) (id : ConnectionId) (f : Line → Line × List Write.Outcome) :
    (s.onLine id f).relay first = s.relay first := by
  unfold onLine
  split
  · rfl
  · exact foldl_relay (report_relay id) _ _

theorem start?_relay (s : Server) :
    s.start?.map (·.2) = (s.relay first).answer? ∧
      ((s.start?.map (·.1)).getD s).relay first = ((s.relay first).perform .start).1 := by
  have hanswer : (s.relay first).answer? =
    (s.hub.ensureStarted? s.host () s.source).map (·.2.2) := rfl
  have hperform : ((s.relay first).perform .start).1 =
      ((s.hub.ensureStarted? s.host () s.source).map fun started =>
        { s.relay first with hub := started.1, source := started.2.1 }).getD (s.relay first) := by
    simp only [Relay.perform, relay]
    cases s.hub.ensureStarted? s.host () s.source <;> rfl
  rw [hanswer, hperform, start?]
  cases s.hub.ensureStarted? s.host () s.source with
  | none => exact ⟨rfl, rfl⟩
  | some started =>
    refine ⟨rfl, ?_⟩
    simp only [Option.map_some, Option.getD_some]
    split
    · exact wake_relay _ _
    · rfl

theorem receive_relay (s : Server) (e : ClientEvent) :
    (s.receive e).relay first = { s.relay first with hub := s.hub.receive e } := by
  simp only [receive]
  split
  · exact wake_relay _ _
  · rfl

theorem publish_relay (s : Server) (e : ClientEvent) :
    (s.publish e).1.relay first = ((s.relay first).perform (.step (.publish e))).1 := by
  simp only [publish, Source.publish, Relay.perform, Relay.step]
  show _ = ({ hub := s.source.subscribers.foldl (fun h _ => h.receive e) s.hub
              source := s.source
              host := s.host
              firstTurn := first } : Relay)
  generalize s.source.subscribers = subscribers
  induction subscribers generalizing s with
  | nil => rfl
  | cons subscriber rest ih =>
    have hreceived : (s.receive e).relay first = { s.relay first with hub := s.hub.receive e } :=
      s.receive_relay e
    have hhub : (s.receive e).hub = s.hub.receive e := congrArg Relay.hub hreceived
    have hsource : (s.receive e).source = s.source := congrArg Relay.source hreceived
    have hhost : (s.receive e).host = s.host := congrArg Relay.host hreceived
    rw [List.foldl_cons, ih, hhub, hsource, hhost]
    rfl

theorem attach_relay (s : Server) :
    s.attach.1.relay first = ((s.relay first).perform (.step (.register s.attach.2))).1 := rfl

theorem setSubscription_relay (s : Server) (id : ConnectionId) (sub : Subscription) :
    (s.setSubscription id sub).1.relay first =
      ((s.relay first).perform (.step (.subscribe id sub))).1 := rfl

theorem disconnect_relay (s : Server) (id : ConnectionId) :
    (s.disconnect id).relay first = ((s.relay first).perform (.step (.disconnect id))).1 := by
  have hperform : ((s.relay first).perform (.step (.disconnect id))).1 =
      { s.relay first with hub := { s.hub with registry := s.hub.registry.unregister id } } := by
    simp [Relay.perform, Relay.step, Hub.Step.isDispatching, Hub.perform_disconnect, relay]
  rw [hperform]
  unfold disconnect Hub.drop
  cases s.hub.registry.contains id with
  | false => rfl
  | true => exact write_relay _ _ _ _

theorem shutdown_relay (s : Server) :
    s.shutdown.relay first = ((s.relay first).perform .shutdown).1 := by
  have habandoned := @foldl_relay first _
    (f := fun s (c : Connection) => s.onLine c.id (·.abandon s.now .dispatch))
    (fun s c => s.onLine_relay c.id _) s s.connections
  have hclosed : ∀ s id, (close s id).relay first = s.relay first := fun s id =>
    s.write_relay .nobody id .close
  rw [← habandoned]
  exact foldl_relay hclosed _ _

theorem relay_run_steps {r : Relay} {steps : List Hub.Step} (hrunning : r.hub.isRunning = true)
    (hticker : r.ticker?.isNone = false)
    (hsteps : ∀ x ∈ steps, x.isDispatching = true) :
    r.run (steps.map .step) = { r with hub := r.hub.run steps } := by
  induction steps generalizing r with
  | nil => rfl
  | cons x steps ih =>
    have hsame := (r.perform_setting (.step x)).ticker?_eq
    obtain ⟨-, -, hhandle, -⟩ := r.hub.perform_frame x
    have hx : x.isDispatching = true := hsteps x List.mem_cons_self
    have hstep : (r.perform (.step x)).1 = { r with hub := (r.hub.perform x).1 } := by
      cases x with
      | take | dispatch | keepalive => simp [Relay.perform, Relay.step, hrunning, hticker]
      | publish | register | subscribe | disconnect => cases hx
    rw [hstep] at hsame
    rw [List.map_cons, Relay.run_cons, hstep, ih]
    · rfl
    · rwa [Hub.isRunning, hhandle]
    · rwa [hsame]
    · exact fun y hy => hsteps y (List.mem_cons_of_mem x hy)

-- What the dispatcher does in a turn are actions of the relay.
theorem Runs.relay {s next : Server} (h : s.Runs next) (hrunning : s.hub.isRunning = true)
    (hticker : (s.relay first).ticker?.isNone = false) :
    ∃ steps, s.Dispatches steps ∧ next.relay first = (s.relay first).run (steps.map .step) := by
  obtain ⟨steps, connections, sent, dispatcher, hsteps, rfl⟩ := h
  have hdispatching : ∀ x ∈ steps, x.isDispatching = true := by
    intro x hx
    obtain rfl | ⟨write, rfl⟩ | ⟨write, rfl⟩ := hsteps x hx <;> rfl
  exact ⟨steps, hsteps, (relay_run_steps hrunning hticker hdispatching).symm⟩

-- Without a ticker the first turn is the last one.
theorem beginDispatch_relay {s : Server} (hrunning : s.hub.isRunning = true)
    (hticker : s.ticker? = none) :
    s.beginDispatch.relay s.now = ((s.relay s.now).perform (.step .take)).1 := by
  have hnone : (s.relay s.now).ticker?.isNone = true := by
    rw [Option.isNone_iff_eq_none]
    exact hticker
  have hstep : ((s.relay s.now).perform (.step .take)).1 =
      { s.relay s.now with hub := { s.hub with intake := s.hub.intake.closed } } := by
    have hrelay : (s.relay s.now).hub.isRunning = true := hrunning
    simp only [Relay.perform, Relay.step, Hub.Step.isDispatching, hrelay, hnone, Bool.not_true,
      Bool.and_false, Bool.and_true, if_true]
    rfl
  rw [hstep, beginDispatch, hticker]
  rfl

def conversation? (s : Server) (id : ConnectionId) : Option Conversation :=
  (s.connection? id).bind (·.conversation)

theorem conversation?_modify (s : Server) (id other : ConnectionId) {f : Connection → Connection}
    (hid : ∀ c, (f c).id = c.id) :
    (s.modify id f).conversation? other =
      (s.connection? other).bind fun c => (if c.id = id then f c else c).conversation := by
  have hsame : ((fun c : Connection => decide (c.id = other)) ∘
      fun c => if c.id = id then f c else c) = fun c => decide (c.id = other) := by
    funext c
    by_cases hc : c.id = id <;> simp [hc, hid]
  simp only [conversation?, connection?, modify, List.find?_map, hsame, Option.bind_map]
  rfl

-- What happens on the line does not touch the conversation.
theorem modify_conversation? (s : Server) (id other : ConnectionId) {f : Connection → Connection}
    (hid : ∀ c, (f c).id = c.id) (hf : ∀ c, (f c).conversation = c.conversation) :
    (s.modify id f).conversation? other = s.conversation? other := by
  rw [s.conversation?_modify id other hid, conversation?]
  congr 1
  funext c
  split
  · exact hf c
  · rfl

theorem write_conversation? (s : Server) (writer : Writer) (id other : ConnectionId)
    (frame : Frame) :
    (s.write writer id frame).1.conversation? other = s.conversation? other := by
  unfold write put
  split
  · rfl
  · next c _ =>
    obtain ⟨sent, hnote⟩ := foldl_note (s.modify id fun c' => { c' with
      line := (c.line.put s.now { writer, frame, limit := s.limit frame }).1 }) id
      (c.line.put s.now { writer, frame, limit := s.limit frame }).2
    refine (congrArg (conversation? · other) hnote).trans ?_
    exact s.modify_conversation? id other (fun _ => rfl) fun _ => rfl

theorem setConversation_conversation? {s : Server} {id : ConnectionId} {before : Conversation}
    (hs : s.conversation? id = some before) (c : Conversation) :
    (s.setConversation id c).conversation? id = some c := by
  obtain ⟨connection, hfound, -⟩ := Option.bind_eq_some_iff.mp hs
  have hid : connection.id = id := by simpa using List.find?_some hfound
  have hmodify := s.conversation?_modify id id
    (f := fun connection => { connection with conversation := some c }) fun _ => rfl
  rw [setConversation, hmodify, hfound]
  simp [hid]

theorem meet_relay (s : Server) (id : ConnectionId) (m : Inbound) :
    (s.meet id m).relay first = s.relay first := by
  cases m <;> rfl

theorem meet_conversation? (s : Server) (id other : ConnectionId) (m : Inbound) :
    (s.meet id m).conversation? other = s.conversation? other := by
  cases m with
  | close => exact s.modify_conversation? id other (fun _ => rfl) fun _ => rfl
  | text | binary | ping | pong | failure => rfl

-- A talk at which a session of the server is after a step, whether it makes the write that the step
-- asks for or waits for one.
structure Follows (first : Nat) (t : Talk) (s : Server) (id : ConnectionId)
    (step : Session.Step) : Prop where
  id : t.id = id
  relay : t.relay = { s.relay first with hub := step.hub }
  stage : t.stage = step.stage
  writing : step.write = none ∨ t.writing = step.write
  waiting : t.writing.isSome = step.stage.isWriting

-- A session that was just accepted.
theorem follows_new (s : Server) (id : ConnectionId) :
    Follows first { id, relay := s.relay first } s id { hub := s.hub, stage := .fresh } :=
  ⟨rfl, rfl, rfl, .inl rfl, rfl⟩

-- Somebody else does something at the hub.
theorem Follows.other {t : Talk} {s next : Server} {id : ConnectionId} {stage : Session.Stage}
    {a : Relay.Action} (ht : Follows first t s id { hub := s.hub, stage })
    (hnext : next.relay first = ((s.relay first).perform a).1) :
    Follows first (t.perform (.other a)) next id { hub := next.hub, stage } := by
  refine ⟨ht.id, ?_, ht.stage, .inl rfl, ht.waiting⟩
  rw [Talk.perform, ht.relay]
  exact hnext.symm

-- A write is over at once, or the session waits for it.
theorem carryOut_cases (first : Nat) (s : Server) (id : ConnectionId) (step : Session.Step) :
    (step.write = none ∧ s.carryOut id step = ({ s with hub := step.hub }, step)) ∨
      step.write.isSome = true ∧ ∃ next : Server,
        next.relay first = { s.relay first with hub := step.hub } ∧
        next.conversation? id = s.conversation? id ∧
        (s.carryOut id step = (next, { step with write := none }) ∨
          ∃ ok, s.carryOut id step = (next, Session.written id ok step.stage step.hub)) := by
  cases hwrite : step.write with
  | none => exact .inl ⟨rfl, by simp [carryOut, hwrite]⟩
  | some frame =>
    have hrelay := @write_relay first { s with hub := step.hub } .session id frame
    have hsame := ({ s with hub := step.hub } : Server).write_conversation? .session id id frame
    refine .inr ⟨rfl, _, hrelay, hsame, ?_⟩
    simp only [carryOut, hwrite]
    split
    · next next hput => exact .inl (by rw [hput])
    · next next result hput =>
      rw [hput] at hrelay
      have hhub : next.hub = step.hub := congrArg Relay.hub hrelay
      exact .inr ⟨result.toBool, by rw [hput, hhub]⟩

theorem carryOut_follows {t : Talk} {s : Server} {id : ConnectionId} {step : Session.Step}
    (ht : Follows first t s id step) :
    ∃ moves, (∀ m ∈ moves, m.isWritten = true) ∧
      Follows first (t.run moves) (s.carryOut id step).1 id (s.carryOut id step).2 ∧
      (s.carryOut id step).1.hub = step.hub ∧
      (s.carryOut id step).1.conversation? id = s.conversation? id := by
  rcases s.carryOut_cases first id step with
    ⟨hwrite, hcarry⟩ | ⟨hwrite, next, hrelay, hsame, hcarry⟩
  · rw [hcarry]
    exact ⟨[], by simp, ⟨ht.id, ht.relay, ht.stage, ht.writing, ht.waiting⟩, rfl, rfl⟩
  · have hhub : next.hub = step.hub := congrArg Relay.hub hrelay
    have hsource : next.source = s.source := congrArg Relay.source hrelay
    rcases hcarry with hcarry | ⟨ok, hcarry⟩
    · rw [hcarry]
      refine ⟨[], by simp, ⟨ht.id, ?_, ht.stage, .inl rfl, ht.waiting⟩, hhub, hsame⟩
      rw [Talk.run_nil, ht.relay, hrelay]
    · have hwriting : t.writing.isSome = true := by
        rcases ht.writing with hnone | heq
        · simp [hnone] at hwrite
        · rwa [heq]
      have hrun : t.run [.written ok] = t.take (Session.written id ok step.stage step.hub) := by
        rw [Talk.run_cons, Talk.run_nil, Talk.perform, if_pos hwriting, ht.id, ht.stage, ht.relay]
      rw [hcarry]
      refine ⟨[.written ok], by simp [Talk.Move.isWritten], ?_, hhub, hsame⟩
      rw [hrun]
      refine ⟨ht.id, ?_, rfl, .inr rfl, Session.written_isWriting _ _ _ _⟩
      rw [hrelay, Talk.take, ht.relay]

theorem carryOut_closing {s : Server} {id : ConnectionId} {step : Session.Step}
    (hwrite : (s.carryOut id step).2.write.isSome = true) :
    (s.carryOut id step).2.stage = .closing := by
  rcases s.carryOut_cases 0 id step with ⟨hnone, hcarry⟩ | ⟨-, next, -, -, hcarry | ⟨ok, hcarry⟩⟩
  · simp [hcarry, hnone] at hwrite
  · simp [hcarry] at hwrite
  · rw [hcarry] at hwrite ⊢
    exact Session.written_closing hwrite

-- When a close is over nothing happens to the hub.
theorem carryOut_hub {s : Server} {id : ConnectionId} {step : Session.Step}
    (hclosing : step.write.isSome = true → step.stage = .closing) :
    (s.carryOut id step).2.hub = step.hub := by
  rcases s.carryOut_cases 0 id step with ⟨-, hcarry⟩ | ⟨hwrite, next, -, -, hcarry | ⟨ok, hcarry⟩⟩
  · rw [hcarry]
  · rw [hcarry]
  · rw [hcarry, hclosing hwrite]
    rfl

-- A session takes a step with all that follows from it at once: after at most two writes it waits,
-- reads or has ended.
theorem follow_follows {t : Talk} {s : Server} {id : ConnectionId} {step : Session.Step}
    (ht : Follows first t s id step) :
    ∃ moves, (∀ m ∈ moves, m.isWritten = true) ∧
      Follows first (t.run moves) (s.follow id step).1 id
        { hub := (s.follow id step).1.hub, stage := (s.follow id step).2 } ∧
      (s.follow id step).1.conversation? id = s.conversation? id := by
  obtain ⟨moves, hmoves, hfollows, -, hsame⟩ := carryOut_follows ht
  obtain ⟨others, hothers, hfollows', hhub, hsame'⟩ := carryOut_follows hfollows
  have hfollow : (s.follow id step).1.relay first =
      ((s.carryOut id step).1.carryOut id (s.carryOut id step).2).1.relay first := by
    simp only [follow]
    split <;> rfl
  have hconversation : (s.follow id step).1.conversation? id =
      ((s.carryOut id step).1.carryOut id (s.carryOut id step).2).1.conversation? id := by
    simp only [follow]
    split <;> rfl
  refine ⟨moves ++ others, ?_, ?_, by rw [hconversation, hsame', hsame]⟩
  · simpa [or_imp, forall_and] using ⟨hmoves, hothers⟩
  · rw [Talk.run_append]
    refine ⟨hfollows'.id, ?_, hfollows'.stage, .inl rfl, hfollows'.waiting⟩
    rw [hfollows'.relay, carryOut_hub carryOut_closing, ← hhub]
    exact hfollow.symm

-- What a session did in a turn, from its talk before the turn and what had come in, to the server
-- after it.
structure Turn (first : Nat) (t : Talk) (inbox : List Inbound) (next : Server) (id : ConnectionId)
    (moves : List Talk.Move) (c : Conversation) : Prop where
  own : ∀ m ∈ moves, m.isOwn = true
  follows : Follows first (t.run moves) next id { hub := next.hub, stage := c.stage }
  conversation : next.conversation? id = some c
  outcome : c.outcome = none
  heard : moves.filterMap Talk.Move.heard? ++ c.inbox = inbox
  -- It goes on as far as it can.
  done : c.inbox = [] ∨ c.stage ≠ .reading

theorem Turn.cons {t : Talk} {inbox : List Inbound} {next : Server} {id : ConnectionId}
    {m : Talk.Move} {answers moves : List Talk.Move} {c : Conversation} (hown : m.isOwn = true)
    (hanswers : ∀ x ∈ answers, x.isWritten = true)
    (hrest : Turn first ((t.perform m).run answers) inbox next id moves c) :
    Turn first t (m.heard?.toList ++ inbox) next id (m :: answers ++ moves) c := by
  have hsilent : answers.filterMap Talk.Move.heard? = [] := by
    rw [List.filterMap_eq_nil_iff]
    intro x hx
    exact Talk.Move.heard?_of_isWritten (hanswers x hx)
  refine ⟨fun x hx => ?_, ?_, hrest.conversation, hrest.outcome, ?_, hrest.done⟩
  · rcases List.mem_append.mp hx with hx | hx
    · rcases List.mem_cons.mp hx with rfl | hx
      · exact hown
      · exact Talk.Move.isOwn_of_isWritten (hanswers x hx)
    · exact hrest.own x hx
  · rw [Talk.run_append, Talk.run_cons]
    exact hrest.follows
  · rw [← hrest.heard, List.filterMap_append, List.filterMap_cons, hsilent]
    cases m.heard? <;> rfl

-- A session reads what came in, in its order and as far as it gets without waiting.
theorem readOn_turn {t : Talk} {s : Server} {id : ConnectionId} {stage : Session.Stage}
    {inbox : List Inbound} {before : Conversation} (hs : s.conversation? id = some before)
    (ht : Follows first t s id { hub := s.hub, stage }) :
    ∃ moves c, Turn first t inbox (s.readOn id stage inbox) id moves c := by
  induction inbox generalizing t s stage before with
  | nil =>
    refine ⟨[], { stage }, by simp, ?_, setConversation_conversation? hs _, rfl, rfl, .inl rfl⟩
    exact ⟨ht.id, ht.relay, ht.stage, ht.writing, ht.waiting⟩
  | cons m inbox ih =>
    by_cases hreading : stage = .reading
    · have hmet := @meet_relay first s id m
      have hheard :
          Follows first (t.perform (.hear m)) (s.meet id m) id (Session.hear id m s.hub) := by
        have hperform : t.perform (.hear m) = t.take (Session.hear id m s.hub) := by
          rw [Talk.perform, if_pos (ht.stage.trans hreading), ht.id, ht.relay]
        rw [hperform]
        refine ⟨ht.id, ?_, rfl, .inr rfl, Session.hear_isWriting id m s.hub⟩
        rw [hmet, Talk.take, ht.relay]
      obtain ⟨answers, hanswers, hfollows, hsame⟩ := follow_follows hheard
      rw [s.meet_conversation? id id m, hs] at hsame
      obtain ⟨moves, c, hturn⟩ := ih hsame hfollows
      rw [readOn, if_pos hreading]
      exact ⟨.hear m :: answers ++ moves, c, hturn.cons rfl hanswers⟩
    · rw [readOn, if_neg hreading]
      refine ⟨[], { stage, inbox := m :: inbox }, by simp, ?_, setConversation_conversation? hs _,
        rfl, rfl, .inr hreading⟩
      exact ⟨ht.id, ht.relay, ht.stage, ht.writing, ht.waiting⟩

-- A step of a session, and what it reads after that.
theorem follow_turn {t : Talk} {s : Server} {id : ConnectionId} {step : Session.Step}
    {m : Talk.Move} {inbox : List Inbound} {before : Conversation}
    (hs : s.conversation? id = some before) (hown : m.isOwn = true) (hsilent : m.heard? = none)
    (hstep : Follows first (t.perform m) s id step) :
    ∃ moves c, Turn first t inbox
      ((s.follow id step).1.readOn id (s.follow id step).2 inbox) id moves c := by
  obtain ⟨answers, hanswers, hfollows, hsame⟩ := follow_follows hstep
  obtain ⟨moves, c, hturn⟩ : ∃ moves c, Turn first ((t.perform m).run answers) inbox
      ((s.follow id step).1.readOn id (s.follow id step).2 inbox) id moves c :=
    readOn_turn (hsame.trans hs) hfollows
  have hcons := hturn.cons hown hanswers
  rw [hsilent] at hcons
  exact ⟨_, c, hcons⟩

theorem written_follows {t : Talk} {s : Server} {id : ConnectionId} {stage : Session.Stage}
    (ht : Follows first t s id { hub := s.hub, stage }) (ok : Bool) :
    Follows first (t.perform (.written ok)) s id (Session.written id ok stage s.hub) := by
  cases hwriting : stage.isWriting with
  | true =>
    have hperform : t.perform (.written ok) = t.take (Session.written id ok stage s.hub) := by
      rw [Talk.perform, if_pos (ht.waiting.trans hwriting), ht.id, ht.stage, ht.relay]
    rw [hperform]
    refine ⟨ht.id, ?_, rfl, .inr rfl, Session.written_isWriting id ok stage s.hub⟩
    rw [Talk.take, ht.relay]
  | false =>
    have hnone : t.writing.isSome = false := ht.waiting.trans hwriting
    have hperform : t.perform (.written ok) = t := by
      rw [Talk.perform, if_neg (by simp [hnone])]
    rw [hperform, Session.written_of_not_isWriting hwriting]
    exact ht

-- A turn of a session is a part of its talk. It takes up what the session was waiting for, hears
-- what came in, and leaves the rest for the next turn.
theorem sessionTurn_turn {t : Talk} {s : Server} {id : ConnectionId} {before : Conversation}
    (hs : s.conversation? id = some before)
    (ht : Follows first t s id { hub := s.hub, stage := before.stage }) :
    ∃ moves c, Turn first t before.inbox (s.sessionTurn id) id moves c := by
  have hfound : (s.connection? id).bind (·.conversation) = some before := hs
  simp only [sessionTurn, hfound]
  split
  · next hstage =>
    have hgreet : t.perform .greet = t.take (Session.greet s.hub) := by
      rw [Talk.perform, if_pos (ht.stage.trans hstage), ht.relay]
    refine follow_turn (m := .greet) hs rfl rfl ?_
    rw [hgreet]
    refine ⟨ht.id, ?_, rfl, .inr rfl, rfl⟩
    rw [Talk.take, ht.relay]
  · exact readOn_turn hs ht
  · next ok _ _ => exact follow_turn hs rfl rfl (written_follows ht ok)

-- The first turn of a session is the beginning of its talk.
theorem sessionTurn_of_fresh {s : Server} {id : ConnectionId} {before : Conversation}
    (hs : s.conversation? id = some before) (hfresh : before.stage = .fresh) :
    ∃ moves c, Turn first { id, relay := s.relay first } before.inbox (s.sessionTurn id) id
      moves c := by
  refine sessionTurn_turn hs ?_
  rw [hfresh]
  exact follows_new s id

end Server

end ChatRelay

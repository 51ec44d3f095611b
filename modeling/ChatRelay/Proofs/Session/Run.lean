import ChatRelay.Proofs.Relay.Run
import ChatRelay.Session

namespace ChatRelay

namespace Session

-- Whether a session waits for a write of its own.
def Stage.isWriting : Stage → Bool
  | greeting | replying | closing => true
  | fresh | reading | ended => false

-- A session asks for a write exactly when it will wait for one.
theorem leave_isWriting (id : ConnectionId) (h : Hub) :
    (leave id h).write.isSome = (leave id h).stage.isWriting := by
  unfold leave
  split <;> rfl

theorem hear_isWriting (id : ConnectionId) (m : Inbound) (h : Hub) :
    (hear id m h).write.isSome = (hear id m h).stage.isWriting := by
  cases m with
  | text content =>
    simp only [hear]
    split <;> rfl
  | binary | ping | pong => rfl
  | close | failure => exact leave_isWriting id h

theorem written_isWriting (id : ConnectionId) (ok : Bool) (stage : Stage) (h : Hub) :
    (written id ok stage h).write.isSome = (written id ok stage h).stage.isWriting := by
  cases stage with
  | replying =>
    cases ok with
    | true => rfl
    | false => exact leave_isWriting id h
  | fresh | greeting | reading | closing | ended => cases ok <;> rfl

theorem written_of_not_isWriting {id : ConnectionId} {ok : Bool} {stage : Stage} {h : Hub}
    (hstage : stage.isWriting = false) : written id ok stage h = { hub := h, stage } := by
  cases stage with
  | fresh | reading | ended => cases ok <;> rfl
  | greeting | replying | closing => cases hstage

-- All that a session writes after a write of its own is the close.
theorem written_closing {id : ConnectionId} {ok : Bool} {stage : Stage} {h : Hub}
    (hwrite : (written id ok stage h).write.isSome = true) :
    (written id ok stage h).stage = .closing := by
  cases stage with
  | greeting =>
    cases ok with
    | true => cases hwrite
    | false => rfl
  | replying =>
    cases ok with
    | true => cases hwrite
    | false =>
      simp only [written, leave] at hwrite ⊢
      split at hwrite
      · rfl
      · cases hwrite
  | fresh | reading | closing | ended => cases ok <;> cases hwrite

end Session

structure Talk where
  id : ConnectionId
  relay : Relay
  stage : Session.Stage := .fresh
  -- What the session is writing.
  writing : Option Frame := none

namespace Talk

inductive Move where
  -- Somebody else does something at the hub.
  | other (a : Relay.Action)
  | greet
  | hear (m : Inbound)
  -- The session's write ends, with success or without.
  | written (ok : Bool)

namespace Move

-- Nobody else registers the connection or subscribes for it.
def isForeign (id : ConnectionId) : Move → Bool
  | other (.step (.register id')) | other (.step (.subscribe id' _)) => id' ≠ id
  | _ => true

-- What the client says.
def heard? : Move → Option Inbound
  | hear m => some m
  | _ => none

-- Whether a write of the session ends.
def isWritten : Move → Bool
  | written _ => true
  | _ => false

-- Whether the session itself takes the step.
def isOwn : Move → Bool
  | other _ => false
  | _ => true

theorem isOwn_of_isWritten {m : Move} (h : m.isWritten = true) : m.isOwn = true := by
  cases m with
  | written => rfl
  | other | greet | hear => cases h

theorem heard?_of_isWritten {m : Move} (h : m.isWritten = true) : m.heard? = none := by
  cases m with
  | written => rfl
  | other | greet | hear => cases h

end Move

def take (t : Talk) (s : Session.Step) : Talk :=
  { t with relay := { t.relay with hub := s.hub }, stage := s.stage, writing := s.write }

-- A session is greeted once, hears while it is reading, and learns how a write of its own ended.
def perform (t : Talk) : Move → Talk
  | .other a => { t with relay := (t.relay.perform a).1 }
  | .greet => if t.stage = .fresh then t.take (Session.greet t.relay.hub) else t
  | .hear m => if t.stage = .reading then t.take (Session.hear t.id m t.relay.hub) else t
  | .written ok =>
    if t.writing.isSome then t.take (Session.written t.id ok t.stage t.relay.hub) else t

def run (t : Talk) (moves : List Move) : Talk := moves.foldl perform t

def subscription? (t : Talk) : Option Subscription := t.relay.hub.registry.subscription? t.id

-- Whether a move takes the connection out of the hub.
def drops (t : Talk) (m : Move) : Bool :=
  t.subscription?.isSome && (t.perform m).subscription?.isNone

def isDropped (t : Talk) : List Move → Bool
  | [] => false
  | m :: rest => t.drops m || isDropped (t.perform m) rest

theorem run_nil (t : Talk) : t.run [] = t := rfl

theorem run_cons (t : Talk) (m : Move) (moves : List Move) :
    t.run (m :: moves) = (t.perform m).run moves := rfl

theorem run_append (t : Talk) (xs ys : List Move) : t.run (xs ++ ys) = (t.run xs).run ys :=
  List.foldl_append

@[simp] theorem perform_id (t : Talk) (m : Move) : (t.perform m).id = t.id := by
  cases m with
  | other => rfl
  | greet | hear | written =>
    simp only [perform]
    split <;> rfl

@[simp] theorem run_id (t : Talk) (moves : List Move) : (t.run moves).id = t.id := by
  induction moves generalizing t with
  | nil => rfl
  | cons m moves ih => rw [run_cons, ih, perform_id]

theorem leave_subscription? (t : Talk) :
    (t.take (Session.leave t.id t.relay.hub)).subscription? = none := by
  have hgone := t.relay.hub.registry.subscription?_unregister t.id t.id
  rw [if_pos rfl] at hgone
  unfold Session.leave Hub.drop
  cases t.relay.hub.registry.contains t.id <;> exact hgone

-- A session whose connection is in the hub takes it out and closes it.
theorem take_leave {t : Talk} {held : Subscription} (h : t.subscription? = some held) :
    (t.take (Session.leave t.id t.relay.hub)).stage = .closing ∧
      (t.take (Session.leave t.id t.relay.hub)).writing = some .close ∧
      (t.take (Session.leave t.id t.relay.hub)).subscription? = none := by
  have hcontains : t.relay.hub.registry.contains t.id = true := by
    rw [Registry.contains, show t.relay.hub.registry.subscription? t.id = some held from h]
    rfl
  have hleave : Session.leave t.id t.relay.hub =
      { hub := { t.relay.hub with registry := t.relay.hub.registry.unregister t.id }
        stage := .closing
        write := some .close } := by
    simp [Session.leave, Hub.drop, hcontains]
  refine ⟨?_, ?_, leave_subscription? t⟩ <;> rw [hleave] <;> rfl

theorem perform_hear {t : Talk} (hstage : t.stage = .reading) (m : Inbound) :
    t.perform (.hear m) = t.take (Session.hear t.id m t.relay.hub) := by
  rw [Talk.perform, if_pos hstage]

-- Somebody else can take the connection out, and cannot do anything else to it.
theorem perform_other {t : Talk} {a : Relay.Action}
    (hforeign : (Move.other a).isForeign t.id = true) :
    (t.perform (.other a)).subscription? = t.subscription? ∨
      (t.perform (.other a)).subscription? = none := by
  cases a with
  | start =>
    left
    simp only [perform, Relay.perform_start_eq, subscription?]
    split
    · rfl
    · split <;> rfl
  | fail e => exact .inl rfl
  | shutdown => exact .inr rfl
  | step s =>
    simp only [perform, Relay.perform, subscription?]
    rcases t.relay.step_cases s with ⟨intake, hstep⟩ | ⟨-, hstep⟩
    · rw [hstep]
      exact .inl rfl
    · rw [hstep, Hub.perform_subscription?]
      cases s with
      | publish | take => exact .inl rfl
      | dispatch o =>
        simp only [Hub.subscriptionAfter]
        split
        · split
          · exact .inr rfl
          · exact .inl rfl
        · exact .inl rfl
      | register other | subscribe other =>
        have hne : other ≠ t.id := of_decide_eq_true hforeign
        exact .inl (if_neg hne.symm)
      | disconnect other =>
        simp only [Hub.subscriptionAfter]
        split
        · exact .inr rfl
        · exact .inl rfl
      | keepalive write =>
        simp only [Hub.subscriptionAfter]
        split
        · exact .inl rfl
        · exact .inr rfl

-- What can at most be taken out stays if it is not.
theorem subscription?_of_not_drops {t : Talk} {m : Move} {held : Subscription}
    (hmove : (t.perform m).subscription? = t.subscription? ∨ (t.perform m).subscription? = none)
    (hheld : t.subscription? = some held) (hdrops : t.drops m = false) :
    (t.perform m).subscription? = some held := by
  rcases hmove with h | h
  · rw [h, hheld]
  · simp [drops, hheld, h] at hdrops

end Talk

end ChatRelay

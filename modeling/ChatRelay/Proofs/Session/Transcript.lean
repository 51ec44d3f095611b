import Mathlib.Data.List.TakeWhile
import ChatRelay.Proofs.Session.Run

namespace ChatRelay

namespace Inbound

-- The answer to a message. It does not depend on anything else.
def reply? : Inbound → Option Reply
  | text content =>
    match Command.parse content with
    | .ok command => some command.reply
    | .error rejection => some rejection.reply
  | binary _ => some Rejection.ofBinary.reply
  | ping _ | pong _ | close | failure => none

-- The subscription that a message asks for, if it is a command that is accepted.
def subscription? : Inbound → Option Subscription
  | text content => (Command.parse content).toOption.map (·.subscription)
  | binary _ | ping _ | pong _ | close | failure => none

-- Whether nothing is heard after it.
def isLast : Inbound → Bool
  | close | failure => true
  | text _ | binary _ | ping _ | pong _ => false

end Inbound

namespace Session

-- What is said to a client that says this, before the connection is closed.
def script (ms : List Inbound) : List Frame :=
  Reply.ready.frame :: ((ms.takeWhile fun m => !m.isLast).filterMap Inbound.reply?).map Reply.frame

-- What a client wants to hear about after it said this.
def wanted (ms : List Inbound) : Subscription :=
  (ms.filterMap Inbound.subscription?).getLast?.getD .nothing

theorem script_append {ms : List Inbound} (hms : ∀ m ∈ ms, m.isLast = false)
    (rest : List Inbound) :
    script (ms ++ rest) = script ms ++
      ((rest.takeWhile fun m => !m.isLast).filterMap Inbound.reply?).map Reply.frame := by
  have hall : ∀ m ∈ ms, (!m.isLast) = true := fun m hm => by rw [hms m hm]; rfl
  simp only [script, List.takeWhile_append_of_pos hall, List.takeWhile_eq_self_iff.mpr hall,
    List.filterMap_append, List.map_append, List.cons_append]

theorem script_concat {ms : List Inbound} (hms : ∀ m ∈ ms, m.isLast = false) {m : Inbound}
    (hm : m.isLast = false) :
    script (ms ++ [m]) = script ms ++ m.reply?.toList.map Reply.frame := by
  rw [script_append hms]
  cases hreply : m.reply? <;> simp [hm, hreply]

-- What comes after the last message changes nothing.
theorem script_of_last {ms : List Inbound} (hms : ∀ m ∈ ms, m.isLast = false) {m : Inbound}
    (hm : m.isLast = true) (rest : List Inbound) : script (ms ++ m :: rest) = script ms := by
  rw [script_append hms]
  simp [hm]

theorem wanted_concat (ms : List Inbound) (m : Inbound) :
    wanted (ms ++ [m]) = m.subscription?.getD (wanted ms) := by
  unfold wanted
  cases hm : m.subscription? <;> simp [hm]

-- A session that hears a message which is not the last one answers it, and does what it asks for.
theorem hear_eq {m : Inbound} (hm : m.isLast = false) (id : ConnectionId) (h : Hub) :
    hear id m h =
      { hub := m.subscription?.elim h fun s => (h.setSubscription id s).1
        stage := if m.reply?.isSome then .replying else .reading
        write := m.reply?.map Reply.frame } := by
  cases m with
  | text content => cases hparse : Command.parse content <;>
      simp [hear, Inbound.reply?, Inbound.subscription?, hparse, reply, Except.toOption]
  | binary | ping | pong => rfl
  | close | failure => cases hm

theorem hear_last {m : Inbound} (hm : m.isLast = true) (id : ConnectionId) (h : Hub) :
    hear id m h = leave id h := by
  cases m with
  | close | failure => rfl
  | text | binary | ping | pong => cases hm

end Session

-- A session next to everything else at its hub, with what its client is going to say.
structure Serving where
  talk : Talk
  unread : List Inbound
  heard : List Inbound := []
  -- The session's own writes that are over, and whether the sink took them.
  written : List (Frame × Bool) := []

namespace Serving

open Session (script wanted)

inductive Move where
  -- The session goes on. If it waits for a write of its own, the write ends like this.
  | own (ok : Bool)
  -- Somebody else does something at the hub.
  | other (a : Relay.Action)

def Move.isOwn : Move → Bool
  | own _ => true
  | other _ => false

def new (id : ConnectionId) (relay : Relay) (unread : List Inbound) : Serving :=
  { talk := { id, relay }, unread }

def proceed (s : Serving) (ok : Bool) : Serving :=
  match s.talk.writing with
  | some frame =>
    { s with talk := s.talk.perform (.written ok), written := s.written ++ [(frame, ok)] }
  | none =>
    match s.talk.stage, s.unread with
    | .fresh, _ => { s with talk := s.talk.perform .greet }
    | .reading, m :: rest =>
      { s with talk := s.talk.perform (.hear m), unread := rest, heard := s.heard ++ [m] }
    | _, _ => s

def perform (s : Serving) : Move → Serving
  | .own ok => s.proceed ok
  | .other a => { s with talk := s.talk.perform (.other a) }

def run (s : Serving) (moves : List Move) : Serving := moves.foldl perform s

-- Whether somebody else takes the connection out of the hub.
def isTakenOut (s : Serving) : List Move → Bool
  | [] => false
  | .own ok :: rest => (s.proceed ok).isTakenOut rest
  | .other a :: rest => s.talk.drops (.other a) || (s.perform (.other a)).isTakenOut rest

theorem run_nil (s : Serving) : s.run [] = s := rfl

theorem run_cons (s : Serving) (m : Move) (moves : List Move) :
    s.run (m :: moves) = (s.perform m).run moves := rfl

def hearing (s : Serving) (m : Inbound) (rest : List Inbound) : Serving :=
  { s with talk := s.talk.perform (.hear m), unread := rest, heard := s.heard ++ [m] }

-- The writes of a session that is over, but for the close. It told all that there was to tell, or a
-- write failed, and it told what comes before that.
inductive Told (heard : List Inbound) : List (Frame × Bool) → Prop where
  | everything {before : List Inbound} {last : Inbound} (hlive : ∀ m ∈ before, m.isLast = false)
      (hlast : last.isLast = true) (hheard : heard = before ++ [last]) :
      Told heard ((script heard).map (·, true))
  | upTo {told : List Frame} {failed : Frame} (hlive : ∀ m ∈ heard, m.isLast = false)
      (hscript : script heard = told ++ [failed]) :
      Told heard (told.map (·, true) ++ [(failed, false)])

-- Where a session is with what it tells, and what the hub has for it.
inductive Accords (s : Serving) : Prop where
  | fresh (hstage : s.talk.stage = .fresh) (hwriting : s.talk.writing = none)
      (hheld : s.talk.subscription? = none) (hheard : s.heard = []) (hwritten : s.written = [])
  | greeting (hstage : s.talk.stage = .greeting)
      (hwriting : s.talk.writing = some Reply.ready.frame)
      (hheld : s.talk.subscription? = none) (hheard : s.heard = []) (hwritten : s.written = [])
  | reading (hstage : s.talk.stage = .reading) (hwriting : s.talk.writing = none)
      (hheld : s.talk.subscription? = some (wanted s.heard))
      (hlive : ∀ m ∈ s.heard, m.isLast = false)
      (hwritten : s.written = (script s.heard).map (·, true))
  | replying {told : List Frame} {frame : Frame} (hstage : s.talk.stage = .replying)
      (hwriting : s.talk.writing = some frame)
      (hheld : s.talk.subscription? = some (wanted s.heard))
      (hlive : ∀ m ∈ s.heard, m.isLast = false) (hscript : script s.heard = told ++ [frame])
      (hwritten : s.written = told.map (·, true))
  | closing (hstage : s.talk.stage = .closing) (hwriting : s.talk.writing = some .close)
      (hheld : s.talk.subscription? = none) (htold : Told s.heard s.written)
  | ended {log : List (Frame × Bool)} {ok : Bool} (hstage : s.talk.stage = .ended)
      (hwriting : s.talk.writing = none) (hheld : s.talk.subscription? = none)
      (htold : Told s.heard log) (hwritten : s.written = log ++ [(.close, ok)])

theorem proceed_of_writing {s : Serving} {frame : Frame} (hwriting : s.talk.writing = some frame)
    (ok : Bool) :
    s.proceed ok = { s with
      talk := s.talk.take (Session.written s.talk.id ok s.talk.stage s.talk.relay.hub)
      written := s.written ++ [(frame, ok)] } := by
  simp [proceed, Talk.perform, hwriting]

theorem Accords.hearing {s : Serving} (hstage : s.talk.stage = .reading)
    (hheld : s.talk.subscription? = some (wanted s.heard))
    (hlive : ∀ m ∈ s.heard, m.isLast = false)
    (hwritten : s.written = (script s.heard).map (·, true)) (m : Inbound) (rest : List Inbound) :
    (s.hearing m rest).Accords := by
  have hperform := Talk.perform_hear hstage m
  cases hm : m.isLast with
  | true =>
    rw [Session.hear_last hm] at hperform
    obtain ⟨hclosing, hclose, hgone⟩ := Talk.take_leave hheld
    have htold : Told (s.heard ++ [m]) s.written := by
      rw [hwritten, ← Session.script_of_last hlive hm []]
      exact .everything hlive hm rfl
    exact .closing (congrArg Talk.stage hperform |>.trans hclosing)
      (congrArg Talk.writing hperform |>.trans hclose)
      (congrArg Talk.subscription? hperform |>.trans hgone) htold
  | false =>
    rw [Session.hear_eq hm] at hperform
    have hheld' : (s.talk.perform (.hear m)).subscription? = some (wanted (s.heard ++ [m])) := by
      rw [hperform, Session.wanted_concat]
      cases m.subscription? with
      | none => exact hheld
      | some asked =>
        have hset := s.talk.relay.hub.registry.subscription?_setSubscription s.talk.id s.talk.id asked
        rw [if_pos rfl] at hset
        refine hset.trans ?_
        rw [show s.talk.relay.hub.registry.subscription? s.talk.id = some _ from hheld]
        rfl
    have hlive' : ∀ x ∈ s.heard ++ [m], x.isLast = false := by
      intro x hx
      rcases List.mem_append.mp hx with hx | hx
      · exact hlive x hx
      · rwa [List.mem_singleton.mp hx]
    have hscript := Session.script_concat hlive hm
    cases hreply : m.reply? with
    | none =>
      simp only [hreply] at hperform hscript
      have hsame : script (s.heard ++ [m]) = script s.heard := by simpa using hscript
      exact .reading (congrArg Talk.stage hperform) (congrArg Talk.writing hperform) hheld' hlive'
        (hwritten.trans (congrArg (List.map (·, true)) hsame.symm))
    | some reply =>
      simp only [hreply] at hperform hscript
      exact .replying (congrArg Talk.stage hperform) (congrArg Talk.writing hperform) hheld' hlive'
        hscript hwritten

theorem Accords.proceed {s : Serving} (hs : s.Accords) (ok : Bool) : (s.proceed ok).Accords := by
  cases hs with
  | fresh hstage hwriting hheld hheard hwritten =>
    have hproceed : s.proceed ok =
        { s with talk := s.talk.take (Session.greet s.talk.relay.hub) } := by
      simp [Serving.proceed, Talk.perform, hwriting, hstage]
    rw [hproceed]
    exact .greeting rfl rfl hheld hheard hwritten
  | greeting hstage hwriting hheld hheard hwritten =>
    rw [proceed_of_writing hwriting, hstage, hwritten]
    cases ok with
    | true =>
      have hregistered := s.talk.relay.hub.registry.subscription?_register s.talk.id s.talk.id
      rw [if_pos rfl] at hregistered
      refine .reading rfl rfl ?_ ?_ ?_ <;> simp only [hheard]
      · exact hregistered
      · exact fun _ hm => absurd hm List.not_mem_nil
      · rfl
    | false =>
      have htold : Told [] ([].map (·, true) ++ [(Reply.ready.frame, false)]) :=
        .upTo (fun _ hm => absurd hm List.not_mem_nil) rfl
      refine .closing rfl rfl hheld ?_
      simp only [hheard]
      exact htold
  | reading hstage hwriting hheld hlive hwritten =>
    cases hunread : s.unread with
    | nil =>
      have hproceed : s.proceed ok = s := by simp [Serving.proceed, hwriting, hstage, hunread]
      rw [hproceed]
      exact .reading hstage hwriting hheld hlive hwritten
    | cons m rest =>
      have hproceed : s.proceed ok = s.hearing m rest := by
        simp [Serving.proceed, Serving.hearing, hwriting, hstage, hunread]
      rw [hproceed]
      exact .hearing hstage hheld hlive hwritten m rest
  | @replying told frame hstage hwriting hheld hlive hscript hwritten =>
    rw [proceed_of_writing hwriting, hstage, hwritten]
    cases ok with
    | true =>
      refine .reading rfl rfl hheld hlive ?_
      simp [hscript]
    | false =>
      obtain ⟨hclosing, hclose, hgone⟩ := Talk.take_leave hheld
      exact .closing hclosing hclose hgone (.upTo hlive hscript)
  | closing hstage hwriting hheld htold =>
    rw [proceed_of_writing hwriting, hstage]
    exact .ended rfl rfl hheld htold rfl
  | ended hstage hwriting hheld htold hwritten =>
    have hproceed : s.proceed ok = s := by simp [Serving.proceed, hwriting, hstage]
    rw [hproceed]
    exact .ended hstage hwriting hheld htold hwritten

theorem Accords.other {s : Serving} (hs : s.Accords) {a : Relay.Action}
    (hforeign : (Talk.Move.other a).isForeign s.talk.id = true)
    (hkept : s.talk.drops (.other a) = false) : (s.perform (.other a)).Accords := by
  have hheld : (s.talk.perform (.other a)).subscription? = s.talk.subscription? := by
    cases hbefore : s.talk.subscription? with
    | some held =>
      exact Talk.subscription?_of_not_drops (Talk.perform_other hforeign) hbefore hkept
    | none =>
      rcases Talk.perform_other hforeign with h | h
      · rw [h, hbefore]
      · exact h
  cases hs with
  | fresh hstage hwriting hbefore hheard hwritten =>
    exact .fresh hstage hwriting (hheld.trans hbefore) hheard hwritten
  | greeting hstage hwriting hbefore hheard hwritten =>
    exact .greeting hstage hwriting (hheld.trans hbefore) hheard hwritten
  | reading hstage hwriting hbefore hlive hwritten =>
    exact .reading hstage hwriting (hheld.trans hbefore) hlive hwritten
  | replying hstage hwriting hbefore hlive hscript hwritten =>
    exact .replying hstage hwriting (hheld.trans hbefore) hlive hscript hwritten
  | closing hstage hwriting hbefore htold =>
    exact .closing hstage hwriting (hheld.trans hbefore) htold
  | ended hstage hwriting hbefore htold hwritten =>
    exact .ended hstage hwriting (hheld.trans hbefore) htold hwritten

@[simp] theorem perform_id (s : Serving) (m : Move) : (s.perform m).talk.id = s.talk.id := by
  cases m with
  | other a => rfl
  | own ok =>
    simp only [perform, proceed]
    split
    · exact s.talk.perform_id _
    · split <;> first | exact s.talk.perform_id _ | rfl

-- Who else acts at the hub stays somebody else.
theorem foreign_perform {s : Serving} {m : Move} {moves : List Move}
    (hforeign : ∀ a, .other a ∈ m :: moves → (Talk.Move.other a).isForeign s.talk.id = true) :
    ∀ a, .other a ∈ moves → (Talk.Move.other a).isForeign (s.perform m).talk.id = true := by
  intro a ha
  rw [perform_id]
  exact hforeign a (List.mem_cons_of_mem m ha)

theorem Accords.run {s : Serving} (hs : s.Accords) {moves : List Move}
    (hforeign : ∀ a, .other a ∈ moves → (Talk.Move.other a).isForeign s.talk.id = true)
    (hkept : s.isTakenOut moves = false) : (s.run moves).Accords := by
  induction moves generalizing s with
  | nil => exact hs
  | cons m moves ih =>
    have hrest := foreign_perform hforeign
    cases m with
    | own ok => exact ih (hs.proceed ok) hrest hkept
    | other a =>
      obtain ⟨hstays, hkept⟩ := Bool.or_eq_false_iff.mp hkept
      exact ih (hs.other (hforeign a List.mem_cons_self) hstays) hrest hkept

-- How many times a session has to go on at most before it is over.
def left (s : Serving) : Nat :=
  match s.talk.stage with
  | .fresh => 2 * s.unread.length + 3
  | .greeting | .replying => 2 * s.unread.length + 2
  | .reading => 2 * s.unread.length + 1
  | .closing => 1
  | .ended => 0

end Serving

end ChatRelay

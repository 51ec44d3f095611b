import ChatRelay.Control.Command
import ChatRelay.Hub.Announcement

namespace ChatRelay

inductive Inbound where
  | text (content : String)
  | binary (content : List UInt8)
  | ping (payload : List UInt8)
  | pong (payload : List UInt8)
  | close
  -- The connection broke, or what came in could not be read.
  | failure
deriving DecidableEq, Inhabited

def Reply.frame (r : Reply) : Frame := .text r.toJson.compact

namespace Session

inductive Stage where
  -- The client was not greeted yet.
  | fresh
  -- The greeting is being written.
  | greeting
  | reading
  -- A reply is being written.
  | replying
  -- The connection is being closed.
  | closing
  | ended
deriving DecidableEq, Inhabited

-- The hub and the stage after a step, and what is to be written next.
structure Step where
  hub : Hub
  stage : Stage
  write : Option Frame := none
deriving Inhabited

def greet (h : Hub) : Step := { hub := h, stage := .greeting, write := some Reply.ready.frame }

-- Takes the connection out of the hub, and closes it unless somebody else did so.
def leave (id : ConnectionId) (h : Hub) : Step :=
  match h.drop id with
  | (hub, true) => { hub, stage := .closing, write := some .close }
  | (hub, false) => { hub, stage := .ended }

def reply (r : Reply) (h : Hub) : Step := { hub := h, stage := .replying, write := some r.frame }

-- A session that is reading takes what came in.
def hear (id : ConnectionId) (m : Inbound) (h : Hub) : Step :=
  match m with
  | .text content =>
    match Command.parse content with
    | .ok command => reply command.reply (h.setSubscription id command.subscription).1
    | .error rejection => reply rejection.reply h
  | .binary _ => reply Rejection.ofBinary.reply h
  | .ping _ | .pong _ => { hub := h, stage := .reading }
  | .close | .failure => leave id h

-- The write that the session waits for is over, with success or without.
def written (id : ConnectionId) (ok : Bool) (stage : Stage) (h : Hub) : Step :=
  match stage, ok with
  | .greeting, true => { hub := h.register id, stage := .reading }
  | .greeting, false => { hub := h, stage := .closing, write := some .close }
  | .replying, true => { hub := h, stage := .reading }
  | .replying, false => leave id h
  | .closing, _ => { hub := h, stage := .ended }
  | stage, _ => { hub := h, stage }

end Session

end ChatRelay

import ChatRelay.Server.Basic

namespace ChatRelay.Server

-- Makes the write that a session asks for. If it is over at once, the session takes its next
-- step; otherwise it waits.
def carryOut (s : Server) (id : ConnectionId) (step : Session.Step) : Server × Session.Step :=
  let s := { s with hub := step.hub }
  match step.write with
  | none => (s, step)
  | some frame =>
    match s.write .session id frame with
    | (s, none) => (s, { step with write := none })
    | (s, some result) => (s, Session.written id result.toBool step.stage s.hub)

-- Takes a step of a session with all that follows from it at once. A write that fails is
-- followed by a close, and a close by nothing.
def follow (s : Server) (id : ConnectionId) (step : Session.Step) : Server × Session.Stage :=
  let (s, step) := s.carryOut id step
  let (s, step) := s.carryOut id step
  (if step.stage = .ended then s.log id .over else s, step.stage)

-- What something that comes in does to the connection, whatever the session makes of it.
def meet (s : Server) (id : ConnectionId) : Inbound → Server
  | .ping payload => s.log id (.pong payload)
  | .close => s.sever id
  | _ => s

-- Reads what came in for as long as the session is reading.
def readOn (s : Server) (id : ConnectionId) (stage : Session.Stage) : List Inbound → Server
  | [] => s.setConversation id { stage }
  | m :: rest =>
    if stage = .reading then
      let (s, stage) := (s.meet id m).follow id (Session.hear id m s.hub)
      s.readOn id stage rest
    else s.setConversation id { stage, inbox := m :: rest }

def sessionTurn (s : Server) (id : ConnectionId) : Server :=
  match (s.connection? id).bind (·.conversation) with
  | none => s
  | some c =>
    match c.stage, c.outcome with
    | .fresh, _ =>
      let (s, stage) := s.follow id (Session.greet s.hub)
      s.readOn id stage c.inbox
    | stage, none => s.readOn id stage c.inbox
    | stage, some ok =>
      let (s, stage) := s.follow id (Session.written id ok stage s.hub)
      s.readOn id stage c.inbox

end ChatRelay.Server

import ChatRelay.Connection.Line
import ChatRelay.Host
import ChatRelay.Session

namespace ChatRelay

inductive Dispatcher.Stage where
  -- There is none, or it has ended.
  | absent
  -- It has not had a turn yet.
  | fresh
  | idle
  -- A round of writes is under way; these are the outcomes so far.
  | writing (counted : Bool) (round : List (ConnectionId × Option (Except WriteError Unit)))
  -- The rest of a round waits until a connection that failed is closed.
  | closing (counted : Bool) (rest : List (ConnectionId × Except WriteError Unit))
  -- It goes on with the rest of a round.
  | settling (counted : Bool) (rest : List (ConnectionId × Except WriteError Unit))
deriving Inhabited

structure Dispatcher where
  stage : Dispatcher.Stage := .absent
  ticker : Ticker := { period := 0, due := 0 }
deriving Inhabited

def Dispatcher.Stage.isIdle : Dispatcher.Stage → Bool
  | idle => true
  | _ => false

-- A session of a connection, what came in for it, and the outcome that it has not looked at.
structure Server.Conversation where
  stage : Session.Stage := .fresh
  inbox : List Inbound := []
  outcome : Option Bool := none
deriving Inhabited

structure Server.Connection where
  id : ConnectionId
  line : Line := {}
  -- A connection that was only attached has no session.
  conversation : Option Server.Conversation := none
deriving Inhabited

inductive Server.Worker where
  | dispatcher
  | session (id : ConnectionId)
deriving DecidableEq, Inhabited

inductive Server.Sent where
  | frame (f : Frame)
  -- Answers to pings are not written by the session.
  | pong (payload : List UInt8)
  -- The session has ended, and the connection with it.
  | over
deriving DecidableEq, Inhabited

-- The clock moves only when it is told to. A worker with something to do waits for a turn, in
-- which it goes on until it has to wait for a write, for input or for the clock.
structure Server where
  hub : Hub := {}
  source : Source Unit := {}
  store : Store := {}
  -- What cannot be read from the store.
  outage : Outage := {}
  maxMessageBytes : Nat := 65536
  host : Host := .ofClock {}
  now : Nat := 0
  dispatcher : Dispatcher := {}
  connections : List Server.Connection := []
  -- The workers that wait for a turn, the next one first.
  turns : List Server.Worker := []
  -- What reached the clients since it was last asked for.
  sent : List (ConnectionId × Server.Sent) := []
deriving Inhabited

namespace Server

def connection? (s : Server) (id : ConnectionId) : Option Connection :=
  s.connections.find? (·.id = id)

def modify (s : Server) (id : ConnectionId) (f : Connection → Connection) : Server :=
  { s with connections := s.connections.map fun c => if c.id = id then f c else c }

def setConversation (s : Server) (id : ConnectionId) (conversation : Conversation) : Server :=
  s.modify id fun c => { c with conversation := some conversation }

-- From now on the sink of a connection behaves like this.
def setSink (s : Server) (id : ConnectionId) (sink : Sink) : Server :=
  s.modify id fun c => { c with line := { c.line with sink } }

-- From now on nothing can be written on a connection.
def sever (s : Server) (id : ConnectionId) : Server :=
  s.setSink id { write := .fails, close := .fails }

-- Gives a worker a turn, unless it waits for one already.
def wake (s : Server) (w : Worker) : Server :=
  if w ∈ s.turns then s else { s with turns := s.turns ++ [w] }

def log (s : Server) (id : ConnectionId) (sent : Sent) : Server :=
  { s with sent := s.sent ++ [(id, sent)] }

-- Takes down whether a write succeeded, and what the client has from it.
def note (id : ConnectionId) (s : Server) (o : Write.Outcome) : Server :=
  match o.result with
  | .ok () => s.log id (.frame o.write.frame)
  | .error _ => s

-- Tells the writer about an outcome that it waited for.
def report (id : ConnectionId) (s : Server) (o : Write.Outcome) : Server :=
  let s := note id s o
  match o.write.writer with
  | .nobody => s
  | .session =>
    (s.modify id fun c =>
      { c with conversation := c.conversation.map fun conversation =>
          { conversation with outcome := some o.result.toBool } }).wake (.session id)
  | .dispatch =>
    let stage := match s.dispatcher.stage with
      | .writing counted round =>
        .writing counted (round.map fun (other, result) =>
          (other, if other = id then some o.result else result))
      | .closing counted rest => .settling counted rest
      | stage => stage
    { s with dispatcher := { s.dispatcher with stage } }.wake .dispatcher

-- Does something on the line of a connection, and reports the outcomes of writes that waited.
def onLine (s : Server) (id : ConnectionId) (f : Line → Line × List Write.Outcome) : Server :=
  match s.connection? id with
  | none => s
  | some c =>
    let (line, outcomes) := f c.line
    outcomes.foldl (report id) (s.modify id fun c => { c with line })

-- Begins a write. If it is over at once, the outcome is known; otherwise the writer will be told
-- when it is over.
def put (s : Server) (id : ConnectionId) (w : Write) : Server × Option (Except WriteError Unit) :=
  match s.connection? id with
  | none => (s, some (.error (.sink .closed)))
  | some c =>
    let (line, outcomes) := c.line.put s.now w
    (outcomes.foldl (note id) (s.modify id fun c => { c with line }), outcomes.head?.map (·.result))

-- How long the sink may take for a frame.
def limit (s : Server) : Frame → Nat
  | .ping => s.hub.settings.pingTimeout
  | .text _ | .close => s.hub.settings.writeTimeout

def write (s : Server) (writer : Writer) (id : ConnectionId) (frame : Frame) :
    Server × Option (Except WriteError Unit) :=
  s.put id { writer, frame, limit := s.limit frame }

end Server

end ChatRelay

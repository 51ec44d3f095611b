import ChatRelay.Server.Basic

namespace ChatRelay.Server

def setStage (s : Server) (stage : Dispatcher.Stage) : Server :=
  { s with dispatcher := { s.dispatcher with stage } }

def lookup (s : Server) : MessageLookup := (s.store.reader.during s.outage).messages

-- Settles outcomes in turn, and waits where a connection is not closed at once.
def settleRound (counted : Bool) (s : Server) :
    List (ConnectionId × Except WriteError Unit) → Server
  | [] => s.setStage .idle
  | (_, .ok ()) :: rest =>
    settleRound counted (if counted then { s with hub := s.hub.noteDelivery } else s) rest
  | (id, .error _) :: rest =>
    match s.hub.drop id with
    | (hub, false) => settleRound counted { s with hub } rest
    | (hub, true) =>
      match { s with hub }.write .dispatch id .close with
      | (s, some _) => settleRound counted s rest
      | (s, none) => s.setStage (.closing counted rest)

-- Begins the writes of a round in turn; those that have to wait have no outcome yet.
def beginWrites (s : Server) :
    List (ConnectionId × Frame) → Server × List (ConnectionId × Option (Except WriteError Unit))
  | [] => (s, [])
  | (id, frame) :: rest =>
    let (s, outcome) := s.write .dispatch id frame
    let (s, round) := s.beginWrites rest
    (s, (id, outcome) :: round)

-- The outcomes of a round if all of its writes are over.
def outcomes? (round : List (ConnectionId × Option (Except WriteError Unit))) :
    Option (List (ConnectionId × Except WriteError Unit)) :=
  round.mapM fun (id, outcome) => outcome.map (id, ·)

-- Settles a round if all of its writes are over.
def settleIfOver (counted : Bool) (s : Server)
    (round : List (ConnectionId × Option (Except WriteError Unit))) : Server :=
  match outcomes? round with
  | some outcomes => s.settleRound counted outcomes
  | none => s.setStage (.writing counted round)

def makeRound (counted : Bool) (s : Server) (offers : List (ConnectionId × Frame)) : Server :=
  let (s, round) := s.beginWrites offers
  s.settleIfOver counted round

def announce (s : Server) (c : Change) : Server :=
  let (hub, announcement) := s.hub.announce s.lookup s.now s.now c
  makeRound true { s with hub } announcement.frames

-- Announces changes in turn; what has to wait stays with the hub.
def announceAll (s : Server) : List Change → Server
  | [] => s
  | c :: rest =>
    let s := s.announce c
    if s.dispatcher.stage.isIdle then s.announceAll rest
    else { s with hub := { s.hub with pending := rest } }

def announcePending (s : Server) : Server :=
  { s with hub := { s.hub with pending := [] } }.announceAll s.hub.pending

def ping (s : Server) : Server :=
  let ticker := s.dispatcher.ticker.next s.now
  { s with dispatcher := { s.dispatcher with ticker } }.makeRound false s.hub.pings

-- Does so many things one after the other: the batches that wait, then the pings that are due.
def work (s : Server) : Nat → Server
  | 0 => s
  | room + 1 =>
    if !s.dispatcher.stage.isIdle then s
    else
      match s.hub.nextBatch? with
      | some hub => { s with hub }.announcePending.work room
      | none => if s.dispatcher.ticker.isDue s.now then s.ping.work room else s

-- An upper bound for what there is to do: each ping puts the next one off.
def workload (s : Server) : Nat :=
  s.hub.intake.waiting.length + (s.now + 1 - s.dispatcher.ticker.due)

-- Goes on after a round.
def proceed (s : Server) : Server :=
  if s.dispatcher.stage.isIdle then
    let s := s.announcePending
    s.work s.workload
  else s

-- The ticker of the pings, with the first round after a period.
def ticker? (s : Server) : Option Ticker := s.host.firstTicker? s.now s.hub.settings.keepalive

-- The first turn. Where there can be no ticker the dispatcher ends.
def beginDispatch (s : Server) : Server :=
  match s.ticker? with
  | none =>
    { s with
      hub := { s.hub with intake := s.hub.intake.closed }
      dispatcher := {} }
  | some ticker => { s with dispatcher := { stage := .idle, ticker } }.proceed

def dispatcherTurn (s : Server) : Server :=
  match s.dispatcher.stage with
  | .absent | .closing _ _ => s
  | .fresh => s.beginDispatch
  | .idle => s.proceed
  | .writing counted round => (s.settleIfOver counted round).proceed
  | .settling counted rest => (s.settleRound counted rest).proceed

end ChatRelay.Server

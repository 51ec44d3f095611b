namespace ChatRelay

inductive Frame where
  | text (content : String)
  | ping
  | close
deriving DecidableEq, Inhabited

inductive SinkError where
  | closed
  | transport (reason : String)
deriving DecidableEq, Inhabited

def SinkError.message : SinkError → String
  | closed => "Connection closed"
  | transport reason => "Transport error: " ++ reason

-- A write that the sink never finishes ends with its time limit.
inductive WriteError where
  -- The sink did not finish within these many milliseconds.
  | timeout (limit : Nat)
  | sink (e : SinkError)
  -- There was nothing to write, as the message has no text.
  | encode (reason : String)
deriving DecidableEq, Inhabited

namespace WriteError

-- Thousandths as decimal places, without zeros at the end.
def places (thousandths : Nat) : String :=
  let digits := (toString (1000 + thousandths)).toList.drop 1
  match (digits.reverse.dropWhile (· = '0')).reverse with
  | [] => ""
  | digits => String.ofList ('.' :: digits)

-- A span of time in milliseconds, in the largest unit that it fills.
def span (millis : Nat) : String :=
  if millis = 0 then "0ns"
  else if millis < 1000 then toString millis ++ "ms"
  else toString (millis / 1000) ++ places (millis % 1000) ++ "s"

def message : WriteError → String
  | timeout limit => "Write timed out after " ++ span limit
  | sink e => e.message
  | encode reason => "Failed to encode message: " ++ reason

end WriteError

inductive SinkMode where
  | takes
  | fails
  | refuses
  -- It never finishes.
  | stalls
deriving DecidableEq, Inhabited

-- The answer of a sink to one frame; none if it never finishes.
def SinkMode.answer? : SinkMode → Option (Except SinkError Unit)
  | takes => some (.ok ())
  | fails => some (.error (.transport "broken pipe"))
  | refuses => some (.error .closed)
  | stalls => none

structure Sink where
  -- For texts and pings.
  write : SinkMode := .takes
  close : SinkMode := .takes
deriving DecidableEq, Inhabited

namespace Sink

def modeFor (s : Sink) : Frame → SinkMode
  | .text _ | .ping => s.write
  | .close => s.close

-- The outcome of one write that has this limit of time.
def put (s : Sink) (f : Frame) (limit : Nat) : Except WriteError Unit :=
  match (s.modeFor f).answer? with
  | some (.ok ()) => .ok ()
  | some (.error e) => .error (.sink e)
  | none => .error (.timeout limit)

end Sink

end ChatRelay

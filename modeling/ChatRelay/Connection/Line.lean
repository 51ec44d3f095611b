import ChatRelay.Connection.Sink

namespace ChatRelay

inductive Writer where
  | dispatch
  | session
  -- Nobody waits for the outcome.
  | nobody
deriving DecidableEq, Inhabited

structure Write where
  writer : Writer
  frame : Frame
  limit : Nat
deriving DecidableEq, Inhabited

structure Write.Outcome where
  write : Write
  result : Except WriteError Unit

-- The line to a sink: one write at a time, the others wait in the order in which they came. How
-- the sink takes a frame is decided, and its time starts to run, when the write begins.
structure Line where
  sink : Sink := {}
  -- The write that the sink has not finished, and when its time is up.
  stalled : Option (Write × Nat) := none
  waiting : List Write := []
deriving DecidableEq, Inhabited

namespace Line

-- Begins writes one after the other, until one of them stalls.
def serve (now : Nat) (sink : Sink) : List Write → Line × List Write.Outcome
  | [] => ({ sink }, [])
  | w :: rest =>
    if sink.modeFor w.frame = .stalls ∧ 0 < w.limit then
      ({ sink, stalled := some (w, now + w.limit), waiting := rest }, [])
    else
      let (line, outcomes) := serve now sink rest
      (line, { write := w, result := sink.put w.frame w.limit } :: outcomes)

-- Begins a write, or lets it wait for its turn.
def put (now : Nat) (w : Write) (l : Line) : Line × List Write.Outcome :=
  match l.stalled with
  | some _ => ({ l with waiting := l.waiting ++ [w] }, [])
  | none => serve now l.sink (l.waiting ++ [w])

-- Ends the write whose time is up.
def expire (now : Nat) (l : Line) : Line × List Write.Outcome :=
  match l.stalled with
  | some (w, due) =>
    if due ≤ now then
      let (line, outcomes) := serve now l.sink l.waiting
      (line, { write := w, result := .error (.timeout w.limit) } :: outcomes)
    else (l, [])
  | none => (l, [])

-- Gives up all writes of a writer.
def abandon (now : Nat) (writer : Writer) (l : Line) : Line × List Write.Outcome :=
  let waiting := l.waiting.filter (·.writer ≠ writer)
  match l.stalled with
  | some (w, _) => if w.writer = writer then serve now l.sink waiting else ({ l with waiting }, [])
  | none => serve now l.sink waiting

end Line

end ChatRelay

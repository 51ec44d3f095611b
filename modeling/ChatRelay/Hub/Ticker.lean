namespace ChatRelay

-- The clock of the keepalive rounds.
structure Ticker where
  period : Nat
  due : Nat
deriving DecidableEq, Inhabited

namespace Ticker

-- By how much a round may be late and still keep the pace.
def tolerance : Nat := 5

def isDue (now : Nat) (t : Ticker) : Bool := t.due ≤ now

-- The ticker after a round at this moment.
def next (now : Nat) (t : Ticker) : Ticker :=
  { t with due := (if t.due + tolerance < now then now else t.due) + t.period }

end Ticker

end ChatRelay

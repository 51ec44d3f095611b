import ChatRelay.Sync.Batch

namespace ChatRelay

-- The batches that wait to be dispatched, oldest first.
structure Intake where
  -- Whether batches are let in at all.
  isOpen : Bool := false
  waiting : List Batch := []
  -- How many batches were let in.
  received : Nat := 0
  -- How many came while there was no room.
  dropped : Nat := 0
deriving Inhabited

namespace Intake

-- Lets a batch in if there is room for it.
def offer (capacity : Nat) (b : Batch) (q : Intake) : Intake :=
  if !q.isOpen then q
  else if q.waiting.length < capacity then
    { q with waiting := q.waiting ++ [b], received := q.received + 1 }
  else { q with dropped := q.dropped + 1 }

-- Takes the oldest batch out.
def next? (q : Intake) : Option (Batch × Intake) :=
  match q.waiting with
  | [] => none
  | b :: rest => some (b, { q with waiting := rest })

def opened (q : Intake) : Intake := { q with isOpen := true }

-- Lets nothing in any more and gives up what waits.
def closed (q : Intake) : Intake := { q with isOpen := false, waiting := [] }

end Intake

end ChatRelay

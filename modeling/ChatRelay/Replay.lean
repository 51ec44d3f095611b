import ChatRelay.Source
import ChatRelay.Store.Basic
import ChatRelay.Text.Utf8

namespace ChatRelay.Replay

inductive Failure where
  | missingFile
  | notText (flaw : Text.Utf8.Flaw)
deriving DecidableEq

def Failure.message : Failure → String
  | missingFile => "Failed to read replay input: No such file or directory (os error 2)"
  | notText flaw => "Failed to read replay input: " ++ flaw.message

structure Stats where
  published : Nat := 0
  batches : Nat := 0
  skipped : Nat := 0
deriving DecidableEq, Inhabited

-- The store and whoever listens.
structure Feed (σ : Type) where
  store : Store
  audience : σ

structure Progress (σ : Type) where
  feed : Feed σ
  stats : Stats := {}

-- The lines of the bytes. A line ends with a line feed, which may follow a carriage return;
-- after the last line feed comes a line only if there are bytes left.
def lines (bytes : List UInt8) : List (List UInt8) := go [] bytes
where
  -- Collects a line from its end.
  go (reversed : List UInt8) : List UInt8 → List (List UInt8)
    | [] => if reversed.isEmpty then [] else [reversed.reverse]
    | b :: rest => if b = 0x0A then ended reversed :: go [] rest else go (b :: reversed) rest
  ended : List UInt8 → List UInt8
    | 0x0D :: reversed => reversed.reverse
    | reversed => reversed.reverse

variable {σ : Type}

-- One client event: folded into the store, then handed on.
def Feed.take (deliver : Store → ClientEvent → σ → σ) (e : ClientEvent) (feed : Feed σ) :
    Feed σ :=
  let store := match e.batch? with
    | some batch => feed.store.apply batch
    | none => feed.store
  { store, audience := deliver store e feed.audience }

def Progress.line (deliver : Store → ClientEvent → σ → σ) (text : String) (p : Progress σ) :
    Progress σ :=
  match Text.nonBlank? text with
  | none => p
  | some text =>
    match ClientEvent.ofText? text with
    | none => { p with stats := { p.stats with skipped := p.stats.skipped + 1 } }
    | some e =>
      { feed := p.feed.take deliver e
        stats := { p.stats with
          published := p.stats.published + 1
          batches := p.stats.batches + (if e.batch?.isSome then 1 else 0) } }

-- The lines in their order, up to the first one that is no text.
def Progress.lines (deliver : Store → ClientEvent → σ → σ) (p : Progress σ) :
    List (List UInt8) → Progress σ × Option Failure
  | [] => (p, none)
  | bytes :: rest =>
    match Text.Utf8.decode bytes with
    | .ok text => (p.line deliver text).lines deliver rest
    | .error flaw => (p, some (.notText flaw))

-- Replays bytes into a feed. What happened before a failure stays.
def run (deliver : Store → ClientEvent → σ → σ) (feed : Feed σ) (bytes : List UInt8) :
    Progress σ × Option Failure :=
  Progress.lines deliver { feed } (lines bytes)

end ChatRelay.Replay

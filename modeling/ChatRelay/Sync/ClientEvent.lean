import ChatRelay.Json.Tree
import ChatRelay.Sync.Codec

namespace ChatRelay

structure Envelope where
  command : String
  data : Json := .null
deriving Inhabited

-- The command `sync_complete` carries a batch; the data of all others is not looked at.
inductive ClientEvent where
  | synced (batch : Batch)
  | other (command : String)
deriving Inhabited

namespace Envelope

def syncComplete : String := "sync_complete"

def layout : Json.Layout := [("command", false), ("data", true)]

def ofJson? (v : Json) : Option Envelope := do
  let fields ← layout.fields? v
  let command ← Json.Fields.required fields "command" Json.string?
  let data ← Json.Fields.withDefault fields "data" .null some
  some { command, data }

-- The values of a declared field in a text: a field may be given at most once, and only its
-- value is taken.
def single? (name : String) (members : List (String × Json.Tree)) :
    Option (Option Json.Tree) :=
  match members.filter (·.1 = name) with
  | [] => some none
  | [(_, tree)] => some (some tree)
  | _ => none

-- Reads an envelope from text. Of members with unknown names only the grammar is checked.
def ofTree? : Json.Tree → Option Envelope
  | .object members => do
    let members ← members.mapM fun (m : List Json.Piece × Json.Tree) =>
      (Json.Piece.text? m.1).map (·, m.2)
    let command ← (← single? "command" members)
    let data ← single? "data" members
    ofParts? command data
  | .array [command] => ofParts? command none
  | .array [command, data] => ofParts? command (some data)
  | _ => none
where
  ofParts? (command : Json.Tree) (data : Option Json.Tree) : Option Envelope := do
    let command ← (← command.value? (Json.maxDepth - 1)).string?
    match data with
    | none => some { command }
    | some tree => (tree.value? (Json.maxDepth - 1)).map ({ command, data := · })

def ofText? (text : String) : Option Envelope :=
  (Json.Tree.parse? text.toList).bind ofTree?

end Envelope

namespace ClientEvent

-- Opens an envelope; a batch has to be well formed.
def ofEnvelope? (e : Envelope) : Option ClientEvent :=
  if e.command = Envelope.syncComplete then (Batch.ofJson? e.data).map .synced
  else some (.other e.command)

def ofText? (text : String) : Option ClientEvent :=
  (Envelope.ofText? text).bind ofEnvelope?

def batch? : ClientEvent → Option Batch
  | .synced batch => some batch
  | .other _ => none

end ClientEvent

end ChatRelay

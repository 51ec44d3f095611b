import ChatRelay.Change.Basic
import ChatRelay.Digest.Sha256
import ChatRelay.Json.Printer
import ChatRelay.Text.Hex

namespace ChatRelay

namespace Json

-- Names of members that do not count: their values differ between repeated notifications.
def volatileNames : List String := ["ts", "timestamp"]

mutual

-- The value without volatile members at any depth, every object in ascending order.
def stable : Json → Json
  | .object members => .mk (stableMembers members)
  | .array items => .array (stableItems items)
  | v => v

def stableItems : List Json → List Json
  | [] => []
  | v :: rest => stable v :: stableItems rest

def stableMembers : List (String × Json) → List (String × Json)
  | [] => []
  | (name, v) :: rest =>
    if name ∈ volatileNames then stableMembers rest else (name, stable v) :: stableMembers rest

end

end Json

namespace Change

-- The document whose text is digested; without entries it has no member for them.
def document (c : Change) (entries : List Json) : Json :=
  .mkSome [
    ("type", some (.string c.kind.name)),
    ("chatID", some (.string c.chatId)),
    ("ids", some (.strings c.ids.toList)),
    ("entries", if entries.isEmpty then none else some (.array (Json.stableItems entries)))]

def preimage (c : Change) (entries : List Json) : String := (c.document entries).compact

def fingerprint (c : Change) (entries : List Json) : String :=
  Text.Hex.encode (Sha256.digest (c.preimage entries).toUTF8.toList)

end Change

end ChatRelay

import ChatRelay.Config.Path

namespace ChatRelay.Config

inductive Entry where
  -- A place that was left out.
  | nothing
  | value (text : String)
  | names (members : List (String × Entry))
  | places (members : List Entry)
deriving Inhabited

namespace Entry

def named : Entry → List (String × Entry)
  | names members => members
  | _ => []

def placed : Entry → List Entry
  | places members => members
  | _ => []

-- Changes the member with a name, which may be a new one.
def atName (name : String) (f : Entry → Entry) : List (String × Entry) → List (String × Entry)
  | [] => [(name, f nothing)]
  | (other, e) :: rest =>
    if other = name then (other, f e) :: rest else (other, e) :: atName name f rest

-- Changes the member at a place, and makes room for it where there is none.
def atPlace (index : Int) (f : Entry → Entry) (members : List Entry) : List Entry :=
  let count := index.natAbs
  if 0 ≤ index then
    (members ++ List.replicate (count + 1 - members.length) nothing).modify count f
  else
    (List.replicate (count - members.length) nothing ++ members).modify
      (members.length - count) f

-- Puts a value where the steps lead. What is in the way is replaced.
def put (text : String) : List Step → Entry → Entry
  | [], _ => value text
  | .name name :: rest, e => names (atName name (put text rest) e.named)
  | .place index :: rest, e => places (atPlace index (put text rest) e.placed)

-- The member with a name. Members without names are told apart by their order.
def member? (order : Nat) (name : String) : Entry → Option Entry
  | names members => members.lookup name
  | places members => members[order]?
  | _ => none

end Entry

structure Variables where
  members : List (String × Entry) := []
deriving Inhabited

namespace Variables

def leadIn : List Char := "beeper_api__".toList

-- Lower case; the sign for kelvin is a capital letter k.
def lower (c : Char) : Char := if c = '\u212a' then 'k' else c.toLower

def dotted : List Char → List Char
  | '_' :: '_' :: rest => '.' :: dotted rest
  | c :: rest => c :: dotted rest
  | [] => []

-- The path of a name, if it has the common part.
def path? (name : String) : Option Path :=
  let cs := name.toList.map lower
  if leadIn.isPrefixOf cs then Path.ofText? (dotted (cs.drop leadIn.length)) else none

def add (v : Variables) (name value : String) : Variables :=
  match path? name with
  | some path => ⟨Entry.atName path.root (Entry.put value path.steps) v.members⟩
  | none => v

-- Later variables win over earlier ones.
def ofEnvironment (pairs : List (String × String)) : Variables :=
  pairs.foldl (fun v (name, value) => v.add name value) {}

-- A section, which has no members unless there is one. A value is not a section.
def section? (v : Variables) (name : String) : Option Entry :=
  match v.members.lookup name with
  | none => some (.names [])
  | some (.names members) => some (.names members)
  | some (.places members) => some (.places members)
  | some _ => none

end Variables

end ChatRelay.Config

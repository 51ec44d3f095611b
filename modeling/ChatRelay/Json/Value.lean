import ChatRelay.Table
import ChatRelay.Number.Binary64

namespace ChatRelay

-- A whole number of 64 bits, signed or unsigned, or a binary64 value.
inductive Json.Number where
  | integer (n : Int)
  | real (x : Binary64)
deriving DecidableEq, Inhabited

-- The members of an object stand in ascending order of their names, each name once; `Json.mk`
-- builds such an object, and so does everything that reads a text.
inductive Json where
  | null
  | bool (b : Bool)
  | number (n : Json.Number)
  | string (s : String)
  | array (items : List Json)
  | object (members : List (String × Json))
deriving Inhabited

namespace Json

def least64 : Int := -0x8000_0000_0000_0000
def greatestSigned64 : Int := 0x7FFF_FFFF_FFFF_FFFF
def greatestUnsigned64 : Int := 0xFFFF_FFFF_FFFF_FFFF

-- The object with these members; the last of several with one name counts.
def mk (members : List (String × Json)) : Json :=
  .object (Table.ofList members).entries

def mkSome (members : List (String × Option Json)) : Json :=
  mk (members.filterMap fun (name, value) => value.map (name, ·))

def ofTable (t : Table Json) : Json := .object t.entries

def int (n : Int) : Json := .number (.integer n)

def nat (n : Nat) : Json := int n

def strings (texts : List String) : Json := .array (texts.map .string)

-- The member of an object; a value of another kind has none.
def get? (name : String) : Json → Option Json
  | .object members => Table.lookupIn name members
  | _ => none

-- Descends through objects along the names.
def at? : List String → Json → Option Json
  | [], v => some v
  | name :: path, v => (v.get? name).bind (at? path)

def string? : Json → Option String
  | .string s => some s
  | _ => none

def bool? : Json → Option Bool
  | .bool b => some b
  | _ => none

-- A signed whole number of 64 bits.
def signed? : Json → Option Int
  | .number (.integer n) => if least64 ≤ n ∧ n ≤ greatestSigned64 then some n else none
  | _ => none

-- An unsigned whole number of 64 bits.
def unsigned? : Json → Option Nat
  | .number (.integer n) => if 0 ≤ n ∧ n ≤ greatestUnsigned64 then some n.toNat else none
  | _ => none

-- Any number, a whole one rounded.
def real? : Json → Option Binary64
  | .number (.integer n) => some (.ofInt n)
  | .number (.real x) => some x
  | _ => none

def array? : Json → Option (List Json)
  | .array items => some items
  | _ => none

def object? : Json → Option (List (String × Json))
  | .object members => some members
  | _ => none

def isObject (v : Json) : Bool := v.object?.isSome

def strings? (v : Json) : Option (List String) :=
  v.array?.bind fun items => items.mapM string?

-- The text along the names, if there is one.
def stringAt? (path : List String) (v : Json) : Option String := (v.at? path).bind string?

def unsignedAt? (path : List String) (v : Json) : Option Nat := (v.at? path).bind unsigned?

end Json

end ChatRelay

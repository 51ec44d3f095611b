import ChatRelay.Json.Value

namespace ChatRelay.Json

-- The declared fields in order; a field marked `true` may be missing at the end of an array.
abbrev Layout := List (String × Bool)

abbrev Fields := List (String × Json)

namespace Layout

-- Names the items of the array form.
def pair? : Layout → List Json → Option Fields
  | [], [] => some []
  | [], _ :: _ => none
  | layout, [] => if layout.all (·.2) then some [] else none
  | (name, _) :: layout, v :: items => (pair? layout items).map ((name, v) :: ·)

def fields? (layout : Layout) : Json → Option Fields
  | .object members => some members
  | .array items => layout.pair? items
  | _ => none

end Layout

namespace Fields

variable {α : Type}

def required (fields : Fields) (name : String) (read : Json → Option α) : Option α :=
  (Table.lookupIn name fields).bind read

-- A missing field has the default; a present one has to be readable.
def withDefault (fields : Fields) (name : String) (default : α) (read : Json → Option α) :
    Option α :=
  match Table.lookupIn name fields with
  | none => some default
  | some v => read v

-- A missing field and `null` are both no value.
def optional (fields : Fields) (name : String) (read : Json → Option α) : Option (Option α) :=
  match Table.lookupIn name fields with
  | none | some .null => some none
  | some v => (read v).map some

end Fields

-- The name of a case without data: a string, or an object with that one name and `null`.
def tag? : Json → Option String
  | .string s => some s
  | .object [(name, .null)] => some name
  | _ => none

variable {α : Type}

def listOf (read : Json → Option α) (v : Json) : Option (List α) :=
  v.array?.bind fun items => items.mapM read

-- The values of an object's members by name.
def tableOf (read : Json → Option α) (v : Json) : Option (Table α) :=
  v.object?.bind fun members =>
    (members.mapM fun (m : String × Json) => (read m.2).map (m.1, ·)).map Table.ofList

end ChatRelay.Json

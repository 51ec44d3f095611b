namespace ChatRelay.Config

inductive Step where
  | name (text : String)
  -- Counted from the end if it is negative.
  | place (index : Int)
deriving DecidableEq, Inhabited

-- A path to an entry, such as `server.port` or `realtime[2]`.
structure Path where
  root : String
  steps : List Step
deriving DecidableEq, Inhabited

def digits? (cs : List Char) : Option Nat :=
  if cs.isEmpty || cs.any (!·.isDigit) then none
  else some (cs.foldl (fun n c => n * 10 + (c.toNat - '0'.toNat)) 0)

namespace Path

def isOfName (c : Char) : Bool := c.isAlphanum || c = ' ' || c = '_' || c = '-'

-- The name that a text starts with, and the rest.
def name? (cs : List Char) : Option (String × List Char) :=
  match cs.takeWhile isOfName with
  | [] => none
  | name => some (String.ofList name, cs.dropWhile isOfName)

def isSpace (c : Char) : Bool := c = ' ' || c = '\t' || c = '\n' || c = '\r'

def greatestPlace : Int := 0x7FFF_FFFF_FFFF_FFFF

def sign (cs : List Char) : Int × List Char :=
  match cs with
  | '-' :: rest => (-1, rest)
  | cs => (1, cs)

-- The place that a text starts with, after the bracket that opens, and the rest.
def place? (cs : List Char) : Option (Int × List Char) :=
  let (sign, cs) := sign (cs.dropWhile isSpace)
  match digits? (cs.takeWhile Char.isDigit), (cs.dropWhile Char.isDigit).dropWhile isSpace with
  | some n, ']' :: rest =>
    let index := sign * n
    if -greatestPlace - 1 ≤ index ∧ index ≤ greatestPlace then some (index, rest) else none
  | _, _ => none

variable {cs rest : List Char} {name : String} {index : Int}

theorem length_dropWhile_le (p : Char → Bool) (cs : List Char) :
    (cs.dropWhile p).length ≤ cs.length :=
  (List.dropWhile_suffix p).length_le

theorem length_of_name? (h : name? cs = some (name, rest)) : rest.length ≤ cs.length := by
  simp only [name?] at h
  split at h
  · contradiction
  · simp only [Option.some.injEq, Prod.mk.injEq] at h
    exact h.2 ▸ length_dropWhile_le isOfName cs

theorem length_sign_le (cs : List Char) : (sign cs).2.length ≤ cs.length := by
  unfold sign
  split <;> simp

theorem length_of_place? (h : place? cs = some (index, rest)) : rest.length ≤ cs.length := by
  simp only [place?] at h
  split at h
  · rename_i hrest
    split at h
    · simp only [Option.some.injEq, Prod.mk.injEq] at h
      have hfound := congrArg List.length hrest
      have hblank := length_dropWhile_le isSpace
        ((sign (cs.dropWhile isSpace)).2.dropWhile Char.isDigit)
      have hdigits := length_dropWhile_le Char.isDigit (sign (cs.dropWhile isSpace)).2
      have hsign := length_sign_le (cs.dropWhile isSpace)
      have hlead := length_dropWhile_le isSpace cs
      simp only [List.length_cons] at hfound
      rw [← h.2]
      omega
    · contradiction
  · contradiction

def steps? : List Char → Option (List Step)
  | [] => some []
  | '.' :: cs =>
    match _h : name? cs with
    | some (name, rest) => (steps? rest).map (.name name :: ·)
    | none => none
  | '[' :: cs =>
    match _h : place? cs with
    | some (index, rest) => (steps? rest).map (.place index :: ·)
    | none => none
  | _ :: _ => none
termination_by cs => cs.length
decreasing_by
  · exact Nat.lt_succ_of_le (length_of_name? _h)
  · exact Nat.lt_succ_of_le (length_of_place? _h)

def ofText? (cs : List Char) : Option Path :=
  match name? cs with
  | some (root, rest) => (steps? rest).map ({ root, steps := · })
  | none => none

end Path

end ChatRelay.Config

import ChatRelay.Json.Value
import ChatRelay.Text.Hex

namespace ChatRelay.Json

-- One piece of a string literal: a character, or a UTF-16 code unit named by its number.
inductive Piece where
  | char (c : Char)
  | unit (u : Nat)
deriving DecidableEq, Inhabited

structure Literal where
  negative : Bool
  whole : List Nat
  fraction : List Nat
  -- Whether the exponent is negative, and its digits.
  exponent : Option (Bool × List Nat)
  -- Whether the literal has neither a point nor an exponent.
  plain : Bool
deriving Inhabited

-- A text of which the grammar is checked and no value is taken yet: parts that nobody asks for
-- are only checked for their grammar.
inductive Tree where
  | null
  | bool (b : Bool)
  | number (n : Literal)
  | string (s : List Piece)
  | array (items : List Tree)
  | object (members : List (List Piece × Tree))
deriving Inhabited

namespace Tree

-- What a reader found, and the text after it.
abbrev Read (α : Type) := Option (α × List Char)

def isGap (c : Char) : Bool := c = ' ' || c = '\t' || c = '\n' || c = '\r'

def skipGap (cs : List Char) : List Char := cs.dropWhile isGap

def digit? (c : Char) : Option Nat :=
  if '0' ≤ c ∧ c ≤ '9' then some (c.toNat - '0'.toNat) else none

def readDigits : List Char → List Nat × List Char
  | [] => ([], [])
  | c :: cs =>
    match digit? c with
    | some d => let (ds, rest) := readDigits cs; (d :: ds, rest)
    | none => ([], c :: cs)

-- At least one digit.
def readSomeDigits (cs : List Char) : Read (List Nat) :=
  match readDigits cs with
  | ([], _) => none
  | found => some found

-- A zero alone, or digits that start with another one.
def readWhole : List Char → Read (List Nat)
  | '0' :: cs => some ([0], cs)
  | cs => readSomeDigits cs

def readExponent : List Char → Read (Bool × List Nat)
  | '-' :: cs => (readSomeDigits cs).map fun (ds, rest) => ((true, ds), rest)
  | '+' :: cs => (readSomeDigits cs).map fun (ds, rest) => ((false, ds), rest)
  | cs => (readSomeDigits cs).map fun (ds, rest) => ((false, ds), rest)

def readFraction : List Char → Read (Option (List Nat))
  | '.' :: cs => (readSomeDigits cs).map fun (ds, rest) => (some ds, rest)
  | cs => some (none, cs)

def readScale : List Char → Read (Option (Bool × List Nat))
  | 'e' :: cs => (readExponent cs).map fun (e, rest) => (some e, rest)
  | 'E' :: cs => (readExponent cs).map fun (e, rest) => (some e, rest)
  | cs => some (none, cs)

def readLiteral (cs : List Char) : Option (Literal × List Char) := do
  let (negative, cs) := match cs with
    | '-' :: rest => (true, rest)
    | _ => (false, cs)
  let (whole, cs) ← readWhole cs
  let (fraction, cs) ← readFraction cs
  let (exponent, cs) ← readScale cs
  some (⟨negative, whole, fraction.getD [], exponent, fraction.isNone && exponent.isNone⟩, cs)

-- The character that a one-letter escape stands for.
def escaped? (c : Char) : Option Char :=
  match c with
  | '"' => some '"'
  | '\\' => some '\\'
  | '/' => some '/'
  | 'b' => some '\x08'
  | 'f' => some '\x0c'
  | 'n' => some '\n'
  | 'r' => some '\r'
  | 't' => some '\t'
  | _ => none

def unit? (a b c d : Char) : Option Nat := do
  let a ← Text.Hex.value? a
  let b ← Text.Hex.value? b
  let c ← Text.Hex.value? c
  let d ← Text.Hex.value? d
  some (((a * 16 + b) * 16 + c) * 16 + d)

-- The rest of a string literal after its opening quote; `found` holds the pieces before, the
-- last one first.
def readPieces (found : List Piece) : List Char → Read (List Piece)
  | [] => none
  | '"' :: cs => some (found.reverse, cs)
  | '\\' :: 'u' :: a :: b :: c :: d :: cs =>
    match unit? a b c d with
    | some u => readPieces (.unit u :: found) cs
    | none => none
  | '\\' :: c :: cs =>
    match escaped? c with
    | some x => readPieces (.char x :: found) cs
    | none => none
  | c :: cs => if c.toNat < 0x20 then none else readPieces (.char c :: found) cs

mutual

-- One value. The fuel bounds the depth of the recursion; `parse?` gives enough of it.
def readValue : Nat → List Char → Read Tree
  | 0, _ => none
  | fuel + 1, cs =>
    match skipGap cs with
    | 'n' :: 'u' :: 'l' :: 'l' :: rest => some (.null, rest)
    | 't' :: 'r' :: 'u' :: 'e' :: rest => some (.bool true, rest)
    | 'f' :: 'a' :: 'l' :: 's' :: 'e' :: rest => some (.bool false, rest)
    | '"' :: rest => (readPieces [] rest).map fun (s, rest) => (.string s, rest)
    | '[' :: rest =>
      match skipGap rest with
      | ']' :: rest => some (.array [], rest)
      | rest => (readItems fuel rest).map fun (items, rest) => (.array items, rest)
    | '\x7b' :: rest =>
      match skipGap rest with
      | '\x7d' :: rest => some (.object [], rest)
      | rest => (readMembers fuel rest).map fun (members, rest) => (.object members, rest)
    | rest => (readLiteral rest).map fun (n, rest) => (.number n, rest)

-- The items of an array up to its closing bracket, at least one.
def readItems : Nat → List Char → Read (List Tree)
  | 0, _ => none
  | fuel + 1, cs =>
    match readValue fuel cs with
    | none => none
    | some (item, rest) =>
      match skipGap rest with
      | ']' :: rest => some ([item], rest)
      | ',' :: rest => (readItems fuel rest).map fun (items, rest) => (item :: items, rest)
      | _ => none

-- The members of an object up to its closing brace, at least one.
def readMembers : Nat → List Char → Read (List (List Piece × Tree))
  | 0, _ => none
  | fuel + 1, cs =>
    match readName (skipGap cs) with
    | none => none
    | some (name, rest) =>
      match readValue fuel rest with
      | none => none
      | some (value, rest) =>
        match skipGap rest with
        | '\x7d' :: rest => some ([(name, value)], rest)
        | ',' :: rest =>
          (readMembers fuel rest).map fun (members, rest) => ((name, value) :: members, rest)
        | _ => none
where
  -- A member's name and the colon after it.
  readName : List Char → Read (List Piece)
    | '"' :: cs =>
      match readPieces [] cs with
      | none => none
      | some (name, rest) =>
        match skipGap rest with
        | ':' :: rest => some (name, rest)
        | _ => none
    | _ => none

end

-- The tree of a whole text. Every second level of the recursion consumes a character.
def parse? (text : List Char) : Option Tree :=
  match readValue (2 * text.length + 2) text with
  | some (tree, rest) => if (skipGap rest).isEmpty then some tree else none
  | none => none

end Tree

-- The characters of a string literal; a surrogate has to stand in a pair.
def Piece.chars? : List Piece → Option (List Char)
  | [] => some []
  | .char c :: rest => (chars? rest).map (c :: ·)
  | .unit high :: .unit low :: rest =>
    if 0xD800 ≤ high ∧ high < 0xDC00 then
      if 0xDC00 ≤ low ∧ low < 0xE000 then
        (chars? rest).map (Char.ofNat (0x10000 + (high - 0xD800) * 0x400 + (low - 0xDC00)) :: ·)
      else none
    else if 0xDC00 ≤ high ∧ high < 0xE000 then none
    else (chars? (.unit low :: rest)).map (Char.ofNat high :: ·)
  | .unit u :: rest =>
    if 0xD800 ≤ u ∧ u < 0xE000 then none else (chars? rest).map (Char.ofNat u :: ·)

def Piece.text? (pieces : List Piece) : Option String := (Piece.chars? pieces).map String.ofList

namespace Literal

-- A significand has 64 bits.
def greatestSignificand : Nat := 0xFFFF_FFFF_FFFF_FFFF

-- Appends digits to a significand as long as they fit; returns the digits that do not.
def significand (start : Nat) : List Nat → Nat × List Nat
  | [] => (start, [])
  | d :: ds =>
    if start * 10 + d ≤ greatestSignificand then significand (start * 10 + d) ds
    else (start, d :: ds)

def natural (digits : List Nat) : Nat := digits.foldl (fun n d => n * 10 + d) 0

def scale (n : Literal) : Int :=
  match n.exponent with
  | some (true, digits) => -(natural digits : Int)
  | some (false, digits) => natural digits
  | none => 0

-- The binary64 value: as many digits as fit count, and those that no longer fit before the point
-- still raise the exponent.
def real? (n : Literal) : Option Binary64 :=
  let (head, dropped) := significand 0 n.whole
  let (all, unread) := significand head n.fraction
  let read := n.fraction.length - unread.length
  Binary64.ofScientific? n.negative all (dropped.length - read + n.scale)

-- A plain literal of 64 bits is a whole number, except for the negative zero.
def value? (n : Literal) : Option Number :=
  let whole : Int := if n.negative then -(natural n.whole : Int) else natural n.whole
  let fits := least64 ≤ whole && whole ≤ greatestUnsigned64 && !(n.negative && whole == 0)
  if n.plain && fits then some (.integer whole) else n.real?.map .real

end Literal

namespace Tree

mutual

-- The value of a tree that nests arrays and objects at most `depth` deep.
def value? : Nat → Tree → Option Json
  | _, .null => some .null
  | _, .bool b => some (.bool b)
  | _, .number n => n.value?.map .number
  | _, .string s => (Piece.text? s).map .string
  | 0, .array _ => none
  | depth + 1, .array items => (values? depth items).map .array
  | 0, .object _ => none
  | depth + 1, .object members => (memberValues? depth members).map .mk

def values? : Nat → List Tree → Option (List Json)
  | _, [] => some []
  | depth, t :: rest =>
    match value? depth t with
    | none => none
    | some v => (values? depth rest).map (v :: ·)

def memberValues? : Nat → List (List Piece × Tree) → Option (List (String × Json))
  | _, [] => some []
  | depth, (name, t) :: rest =>
    match Piece.text? name, value? depth t with
    | some name, some v => (memberValues? depth rest).map ((name, v) :: ·)
    | _, _ => none

end

end Tree

def maxDepth : Nat := 127

-- The value of a text. Of several members with one name the last counts.
def parse? (text : String) : Option Json :=
  (Tree.parse? text.toList).bind (·.value? maxDepth)

end ChatRelay.Json

namespace ChatRelay.Text.Utf8

-- A character of several bytes that has begun: the place of its first byte, the bits so far, and
-- the range of each byte that is to follow.
structure Begun where
  start : Nat
  bits : Nat
  pending : List (Nat × Nat)
deriving DecidableEq

-- Bytes are cut into characters and flaws; a flaw is the longest start of a character that cannot
-- go on.
inductive Piece where
  | char (c : Char)
  -- These many bytes from this place on are no character.
  | bad (start length : Nat)
  -- The bytes end within the character that begins at this place.
  | cut (start : Nat)
deriving DecidableEq

-- The range of a byte that continues a character.
def tail : Nat × Nat := (0x80, 0xBF)

-- The bytes that follow a first byte. Ranges other than `tail` leave out characters that have a
-- shorter form, surrogates, and code points beyond the last.
def followers (b : Nat) : Option (List (Nat × Nat)) :=
  if b < 0x80 then some []
  else if b < 0xC2 then none
  else if b < 0xE0 then some [tail]
  else if b = 0xE0 then some [(0xA0, 0xBF), tail]
  else if b = 0xED then some [(0x80, 0x9F), tail]
  else if b < 0xF0 then some [tail, tail]
  else if b = 0xF0 then some [(0x90, 0xBF), tail, tail]
  else if b < 0xF4 then some [tail, tail, tail]
  else if b = 0xF4 then some [(0x80, 0x8F), tail, tail]
  else none

-- The bits of the code point that a first byte holds.
def leadBits (b following : Nat) : Nat :=
  if following = 0 then b else b % (64 >>> following)

-- Takes a first byte: what it completes, and what it begins.
def enter (place b : Nat) : List Piece × Option Begun :=
  match followers b with
  | none => ([.bad place 1], none)
  | some [] => ([.char (Char.ofNat b)], none)
  | some pending => ([], some { start := place, bits := leadBits b pending.length, pending })

-- Takes one byte in or between characters.
def advance (place b : Nat) : Option Begun → List Piece × Option Begun
  | none => enter place b
  | some begun =>
    match begun.pending with
    | [] => enter place b
    | (low, high) :: pending =>
      if low ≤ b ∧ b ≤ high then
        let bits := begun.bits * 64 + b % 64
        if pending.isEmpty then ([.char (Char.ofNat bits)], none)
        else ([], some { begun with bits, pending })
      else
        let (pieces, begun') := enter place b
        (.bad begun.start (place - begun.start) :: pieces, begun')

def piecesFrom (place : Nat) (begun : Option Begun) : List UInt8 → List Piece
  | [] => (begun.map fun b => Piece.cut b.start).toList
  | b :: rest =>
    let (pieces, begun) := advance place b.toNat begun
    pieces ++ piecesFrom (place + 1) begun rest

def pieces (bytes : List UInt8) : List Piece := piecesFrom 0 none bytes

inductive Flaw where
  | invalid (start length : Nat)
  | incomplete (start : Nat)
deriving DecidableEq

def Flaw.message : Flaw → String
  | invalid start length =>
    "invalid utf-8 sequence of " ++ toString length ++ " bytes from index " ++ toString start
  | incomplete start => "incomplete utf-8 byte sequence from index " ++ toString start

-- The character, or the flaw that stands in its place.
def Piece.strict : Piece → Except Flaw Char
  | .char c => .ok c
  | .bad start length => .error (.invalid start length)
  | .cut start => .error (.incomplete start)

-- The text of the bytes, or their first flaw.
def decode (bytes : List UInt8) : Except Flaw String :=
  String.ofList <$> (pieces bytes).mapM Piece.strict

def Piece.lenient : Piece → Char
  | .char c => c
  | .bad .. | .cut _ => '\ufffd'

-- The text of the bytes, with a replacement character for every flaw.
def decodeLenient (bytes : List UInt8) : String :=
  String.ofList ((pieces bytes).map Piece.lenient)

end ChatRelay.Text.Utf8

import ChatRelay.Text.Hex
import ChatRelay.Text.Utf8

namespace ChatRelay.Text.FormQuery

-- The parts between the separators.
def splitAt (separator : UInt8) : List UInt8 → List (List UInt8)
  | [] => [[]]
  | b :: rest =>
    match splitAt separator rest with
    | [] => [[b]]
    | part :: parts => if b = separator then [] :: part :: parts else (b :: part) :: parts

-- The bytes before the first separator and those after it.
def splitOnce (separator : UInt8) (bytes : List UInt8) : List UInt8 × List UInt8 :=
  (bytes.takeWhile (· ≠ separator), (bytes.dropWhile (· ≠ separator)).drop 1)

def plusToSpace (bytes : List UInt8) : List UInt8 :=
  bytes.map fun b => if b = 0x2B then 0x20 else b

def hexValue? (b : UInt8) : Option Nat := Hex.value? (Char.ofNat b.toNat)

-- Replaces each `%` with two hexadecimal digits by the byte that they stand for.
def percentDecode : List UInt8 → List UInt8
  | [] => []
  | [b] => [b]
  | [b, c] => [b, c]
  | b :: high :: low :: rest =>
    match hexValue? high, hexValue? low with
    | some h, some l =>
      if b = 0x25 then UInt8.ofNat (h * 16 + l) :: percentDecode rest
      else b :: percentDecode (high :: low :: rest)
    | _, _ => b :: percentDecode (high :: low :: rest)
termination_by bytes => bytes.length

def decodePart (bytes : List UInt8) : String :=
  Utf8.decodeLenient (percentDecode (plusToSpace bytes))

def pairs (query : String) : List (String × String) :=
  ((splitAt 0x26 query.toUTF8.toList).filter (!·.isEmpty)).map fun part =>
    let (name, value) := splitOnce 0x3D part
    (decodePart name, decodePart value)

-- The last value with the name.
def last? (name query : String) : Option String :=
  (((pairs query).filter (·.1 = name)).getLast?).map (·.2)

end ChatRelay.Text.FormQuery

import ChatRelay.Text.Hex

namespace ChatRelay.Net

inductive IpAddress where
  -- Four numbers below 256.
  | v4 (octets : List Nat)
  -- Eight numbers below 65536, and the zone that the address is of; zero is the usual one.
  | v6 (groups : List Nat) (zone : Nat)
deriving DecidableEq, Inhabited

-- An address that a server can bind to. It is read as a whole, without blanks or names, and
-- written in its shortest form.
structure SocketAddress where
  ip : IpAddress
  number : Nat
deriving DecidableEq, Inhabited

def isDigit (radix : Nat) (c : Char) : Bool := (Text.Hex.value? c).any (· < radix)

-- A number up to a greatest one.
def readNumber (radix greatest : Nat) (cs : List Char) : Option (Nat × List Char) :=
  match cs.takeWhile (isDigit radix) with
  | [] => none
  | digits =>
    let n := digits.foldl (fun n c => n * radix + (Text.Hex.value? c).getD 0) 0
    if n ≤ greatest then some (n, cs.dropWhile (isDigit radix)) else none

-- A decimal number below 256, without zeros in front.
def readOctet (cs : List Char) : Option (Nat × List Char) :=
  match cs.takeWhile (isDigit 10) with
  | '0' :: _ :: _ => none
  | _ => readNumber 10 255 cs

-- A hexadecimal number of at most four digits.
def readGroup (cs : List Char) : Option (Nat × List Char) :=
  if 4 < (cs.takeWhile (isDigit 16)).length then none else readNumber 16 0xFFFF cs

def readChar (c : Char) : List Char → Option (List Char)
  | d :: rest => if c = d then some rest else none
  | [] => none

-- Four octets with dots between them.
def readOctets (cs : List Char) : Option (List Nat × List Char) := do
  let (a, cs) ← readOctet cs
  let (b, cs) ← readOctet (← readChar '.' cs)
  let (c, cs) ← readOctet (← readChar '.' cs)
  let (d, cs) ← readOctet (← readChar '.' cs)
  return ([a, b, c, d], cs)

-- The two groups that four octets fill.
def pairOctets : List Nat → List Nat
  | a :: b :: rest => (a * 256 + b) :: pairOctets rest
  | _ => []

structure GroupRun where
  groups : List Nat
  -- Whether it ended with octets, which fill the last two groups.
  endsInOctets : Bool
  rest : List Char

-- At most so many groups with colons between them.
def readGroups (started : Bool) (cs : List Char) : Nat → GroupRun
  | 0 => { groups := [], endsInOctets := false, rest := cs }
  | limit + 1 =>
    match if started then readChar ':' cs else some cs with
    | none => { groups := [], endsInOctets := false, rest := cs }
    | some inner =>
      match if 0 < limit then readOctets inner else none with
      | some (octets, rest) => { groups := pairOctets octets, endsInOctets := true, rest }
      | none =>
        match readGroup inner with
        | none => { groups := [], endsInOctets := false, rest := cs }
        | some (group, rest) =>
          let run := readGroups true rest limit
          { run with groups := group :: run.groups }

-- Eight groups, where two colons stand for one or more that are zero.
def readIpv6 (cs : List Char) : Option (List Nat × List Char) :=
  let head := readGroups false cs 8
  if head.groups.length = 8 then some (head.groups, head.rest)
  else if head.endsInOctets then none
  else do
    let cs ← readChar ':' (← readChar ':' head.rest)
    let tail := readGroups false cs (7 - head.groups.length)
    let zeros := List.replicate (8 - head.groups.length - tail.groups.length) 0
    return (head.groups ++ zeros ++ tail.groups, tail.rest)

-- The number of a zone after a percent sign, if there is one.
def readZone (cs : List Char) : Nat × List Char :=
  ((readChar '%' cs).bind (readNumber 10 0xFFFFFFFF)).getD (0, cs)

def readIp (cs : List Char) : Option (IpAddress × List Char) :=
  match readOctets cs with
  | some (octets, rest) => some (.v4 octets, rest)
  | none => do
    let (groups, cs) ← readIpv6 (← readChar '[' cs)
    let (zone, cs) := readZone cs
    return (.v6 groups zone, ← readChar ']' cs)

def SocketAddress.ofText? (text : String) : Option SocketAddress := do
  let (ip, cs) ← readIp text.toList
  let (number, cs) ← readNumber 10 0xFFFF (← readChar ':' cs)
  if cs.isEmpty then some { ip, number } else none

def writeOctets (octets : List Nat) : String := ".".intercalate (octets.map toString)

-- The hexadecimal digits of a number below 65536, without zeros in front.
def writeGroup (n : Nat) : String :=
  let digits := [n / 4096, n / 256 % 16, n / 16 % 16].dropWhile (· = 0) ++ [n % 16]
  String.ofList (digits.map Text.Hex.digit)

def writeGroups (groups : List Nat) : String := ":".intercalate (groups.map writeGroup)

structure ZeroRun where
  start : Nat
  length : Nat

-- The longest run of zeros, the first of several; `current` is the run that is going on.
def longestZeros (place : Nat) (current longest : ZeroRun) : List Nat → ZeroRun
  | [] => longest
  | group :: rest =>
    if group = 0 then
      let start := if current.length = 0 then place else current.start
      let current : ZeroRun := { start, length := current.length + 1 }
      longestZeros (place + 1) current
        (if longest.length < current.length then current else longest) rest
    else longestZeros (place + 1) ⟨0, 0⟩ longest rest

def writeIpv6 (groups : List Nat) : String :=
  match groups with
  | [0, 0, 0, 0, 0, 0xFFFF, high, low] =>
    "::ffff:" ++ writeOctets [high / 256, high % 256, low / 256, low % 256]
  | _ =>
    let zeros := longestZeros 0 ⟨0, 0⟩ ⟨0, 0⟩ groups
    if 1 < zeros.length then
      writeGroups (groups.take zeros.start) ++ "::"
        ++ writeGroups (groups.drop (zeros.start + zeros.length))
    else writeGroups groups

def SocketAddress.write (a : SocketAddress) : String :=
  let host := match a.ip with
    | .v4 octets => writeOctets octets
    | .v6 groups zone =>
      "[" ++ writeIpv6 groups ++ (if zone = 0 then "" else "%" ++ toString zone) ++ "]"
  host ++ ":" ++ toString a.number

end ChatRelay.Net

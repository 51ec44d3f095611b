import ChatRelay.Json.Value
import ChatRelay.Number.Shortest
import ChatRelay.Text.Hex

namespace ChatRelay.Json

-- Numbers with a fraction are positional from `0.00001` up to sixteen digits before the point,
-- and always show a fraction there.
def numberLayout : DecimalLayout :=
  { leastPositional := -5, greatestPositional := 15, wholeFraction := true
    mark := "e", positiveSign := "+" }

def Number.write : Number → String
  | .integer n => toString n
  | .real x => x.write numberLayout

def escape (c : Char) : List Char :=
  if c = '"' then ['\\', '"']
  else if c = '\\' then ['\\', '\\']
  else if c = '\x08' then ['\\', 'b']
  else if c = '\x0c' then ['\\', 'f']
  else if c = '\n' then ['\\', 'n']
  else if c = '\r' then ['\\', 'r']
  else if c = '\t' then ['\\', 't']
  else if c.toNat < 0x20 then
    ['\\', 'u', '0', '0', Text.Hex.digit (c.toNat / 16), Text.Hex.digit (c.toNat % 16)]
  else [c]

def quote (s : String) : List Char :=
  '"' :: (s.toList.flatMap escape ++ ['"'])

mutual

def print : Json → List Char
  | .null => "null".toList
  | .bool true => "true".toList
  | .bool false => "false".toList
  | .number n => n.write.toList
  | .string s => quote s
  | .array items => '[' :: (printItems items ++ [']'])
  | .object members => '\x7b' :: (printMembers members ++ ['\x7d'])

def printItems : List Json → List Char
  | [] => []
  | [v] => print v
  | v :: rest => print v ++ ',' :: printItems rest

def printMembers : List (String × Json) → List Char
  | [] => []
  | [(name, v)] => quote name ++ ':' :: print v
  | (name, v) :: rest => quote name ++ ':' :: (print v ++ ',' :: printMembers rest)

end

def compact (v : Json) : String := String.ofList v.print

end ChatRelay.Json

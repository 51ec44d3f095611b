import ChatRelay.Text.Hex

namespace ChatRelay

-- The identifier with a number; numbers below `2 ^ 122` have different texts.
structure ConnectionId where
  number : Nat
deriving DecidableEq, Inhabited

namespace ConnectionId

-- The lowest hexadecimal digits of a number.
def hexDigits (count n : Nat) : List Char :=
  (List.range count).reverse.map fun place => Text.Hex.digit ((n >>> (4 * place)) % 16)

-- The text in groups of 8, 4, 4, 4 and 12 digits. The third group starts with the version, and
-- the two leading bits of the fourth one are its variant.
def text (id : ConnectionId) : String :=
  let n := id.number
  String.ofList <|
    hexDigits 8 (n >>> 90) ++ ['-'] ++ hexDigits 4 (n >>> 74) ++ ['-']
      ++ '4' :: hexDigits 3 (n >>> 62) ++ ['-']
      ++ hexDigits 4 (0x8000 + (n >>> 48) % 0x4000) ++ ['-'] ++ hexDigits 12 n

end ConnectionId

end ChatRelay

namespace ChatRelay.Text

-- Only the letters of ASCII change: the words that are compared without regard to case are made
-- of these.
def lowerAscii (s : String) : String := String.ofList (s.toList.map Char.toLower)

end ChatRelay.Text

import ChatRelay.Text.Blank
import ChatRelay.Text.Case

namespace ChatRelay.Http

-- A header: the name is in lower case.
structure Header where
  name : String
  value : String
deriving DecidableEq, Inhabited

namespace Header

-- Characters of names, letters and digits apart.
def nameMarks : List Char :=
  ['!', '#', '$', '%', '&', '\'', '*', '+', '-', '.', '^', '_', '\x60', '|', '~']

def isName (s : String) : Bool :=
  s ≠ "" && s.toList.all fun c => c.isAlphanum || c ∈ nameMarks

-- No control character other than the tab may stand in a value.
def isValue (s : String) : Bool :=
  s.toList.all fun c => c = '\t' || (' ' ≤ c && c ≠ '\x7f')

-- Names are the same in either case.
def of? (name value : String) : Option Header :=
  if isName name && isValue value then some { name := Text.lowerAscii name, value } else none

-- The value if it consists of printable ASCII characters and tabs.
def readable? (h : Header) : Option String :=
  if h.value.toList.all fun c => c = '\t' || (' ' ≤ c && c ≤ '~') then some h.value else none

end Header

structure Target where
  path : String
  query : Option String
deriving DecidableEq, Inhabited

namespace Target

-- Drops the scheme and the authority of an absolute address.
def dropAuthority : List Char → List Char
  | ':' :: '/' :: '/' :: rest =>
    match rest.dropWhile fun c => c ≠ '/' && c ≠ '?' with
    | '/' :: path => '/' :: path
    | other => '/' :: other
  | _ :: rest => dropAuthority rest
  | [] => []

-- Reads an address; what follows the number sign is not part of the request.
def ofText (address : String) : Target :=
  let cs := address.toList.takeWhile (· ≠ '#')
  let cs := if cs.head? = some '/' then cs else dropAuthority cs
  { path := String.ofList (cs.takeWhile (· ≠ '?'))
    query :=
      match cs.dropWhile (· ≠ '?') with
      | [] => none
      | _ :: query => some (String.ofList query) }

end Target

structure Request where
  method : String := "GET"
  target : Target
  headers : List Header := []
deriving Inhabited

-- The first header with the name, which is given in lower case.
def Request.header? (r : Request) (name : String) : Option Header :=
  r.headers.find? (·.name = name)

end ChatRelay.Http

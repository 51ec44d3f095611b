import ChatRelay.Fault
import ChatRelay.Http.Request
import ChatRelay.Text.FormQuery

namespace ChatRelay.Http

-- Who may connect: with a token, only requests that present it.
structure Access where
  -- Without a token everybody may connect.
  token : Option String
  allowQueryToken : Bool := false
deriving DecidableEq, Inhabited

namespace Access

def tokenHeader : String := "x-beeper-access-token"
def tokenParameter : String := "dangerouslyUseTokenInQuery"
def bearerScheme : List Char := "Bearer ".toList

def isEnabled (a : Access) : Bool := a.token.isSome

-- The trimmed text of the first header with the name; an unreadable or blank one does not count.
def headerText? (r : Request) (name : String) : Option String :=
  ((r.header? name).bind Header.readable?).bind Text.nonBlank?

-- What follows the scheme of a bearer credential.
def bearer? (text : String) : Option String :=
  if bearerScheme.isPrefixOf text.toList then
    some (Text.trim (String.ofList (text.toList.drop bearerScheme.length)))
  else none

def queryToken? (r : Request) : Option String :=
  (r.target.query.bind (Text.FormQuery.last? tokenParameter)).bind Text.nonBlank?

def presented? (a : Access) (r : Request) : Option String :=
  (headerText? r "authorization").bind bearer?
    <|> headerText? r tokenHeader
    <|> if a.allowQueryToken then queryToken? r else none

def unauthorized : Fault :=
  { code := .unauthorized, message := "Unauthorized: missing or invalid token" }

def authorize (a : Access) (r : Request) : Except Fault Unit :=
  match a.token with
  | none => .ok ()
  | some token => if a.presented? r = some token then .ok () else .error unauthorized

end Access

end ChatRelay.Http

import ChatRelay.Http.Access
import ChatRelay.Http.Response

namespace ChatRelay.Http

namespace Request

def connectionPaths : List String := ["/v1/ws", "/ws"]

def occursIn (part : List Char) : List Char → Bool
  | [] => part.isEmpty
  | c :: rest => part.isPrefixOf (c :: rest) || occursIn part rest

-- Whether the first header with the name has the text somewhere in its value, in either case.
def mentions (r : Request) (name text : String) : Bool :=
  (r.header? name).any fun h => occursIn text.toList (Text.lowerAscii h.value).toList

-- Whether the first header with the name has this value, in either case.
def hasValue (r : Request) (name value : String) : Bool :=
  (r.header? name).any fun h => Text.lowerAscii h.value = value

-- Whether the headers ask for the upgrade; if not, the first one that is missing.
def checkUpgrade (r : Request) : Except String Unit :=
  if !r.mentions "connection" "upgrade" then
    .error "Connection header did not include 'upgrade'"
  else if !r.hasValue "upgrade" "websocket" then
    .error "\x60Upgrade\x60 header did not include 'websocket'"
  else if !r.hasValue "sec-websocket-version" "13" then
    .error "\x60Sec-WebSocket-Version\x60 header did not include '13'"
  else if (r.header? "sec-websocket-key").isNone then
    .error "\x60Sec-WebSocket-Key\x60 header missing"
  else .ok ()

-- The response to a request that does not become a connection.
def refusal? (access : Access) (r : Request) : Option Response :=
  match access.authorize r with
  | .error fault => some fault.response
  | .ok () =>
    if r.target.path ∉ connectionPaths then some .notFound
    else if r.method ≠ "GET" then some { status := 405, body := .empty }
    else
      match r.checkUpgrade with
      | .error reason => some (.badRequest reason)
      | .ok () => none

-- The same, fit for the method of the request.
def refuse? (access : Access) (r : Request) : Option Response :=
  (r.refusal? access).map fun response =>
    if r.method = "HEAD" then response.headOnly else response

end Request

end ChatRelay.Http

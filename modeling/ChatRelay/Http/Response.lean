import ChatRelay.Fault
import ChatRelay.Json.Value

namespace ChatRelay.Http

inductive Body where
  | empty
  | text (content : String)
  | json (v : Json)
deriving Inhabited

structure Response where
  status : Nat
  body : Body
deriving Inhabited

namespace Response

def notFound : Response := { status := 404, body := .empty }

def badRequest (reason : String) : Response := { status := 400, body := .text reason }

-- The connection that the request came on cannot be used for frames.
def cannotUpgrade : Response where
  status := 426
  body := .text "WebSocket request couldn't be upgraded since no upgrade state was present"

-- A response to a request for the head only has no body.
def headOnly (r : Response) : Response := { r with body := .empty }

end Response

end ChatRelay.Http

namespace ChatRelay

def FaultCode.status : FaultCode → Nat
  | .invalidCommand | .invalidPayload | .validationFailed => 400
  | .unauthorized => 401
  | .notFound => 404
  | .internalError => 500

namespace Fault

-- The fault as the body of a response; without details it has no member for them.
def toJson (f : Fault) : Json :=
  .mkSome [
    ("message", some (.string f.message)),
    ("code", some (.string f.code.name)),
    ("details",
      if f.details.isEmpty then none else some (.ofTable (f.details.map fun _ => .string)))]

def responseWith (f : Fault) (status : Nat) : Http.Response := { status, body := .json f.toJson }

-- The response whose status goes with the code.
def response (f : Fault) : Http.Response := f.responseWith f.code.status

end Fault

end ChatRelay

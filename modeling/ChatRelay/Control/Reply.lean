import ChatRelay.Fault
import ChatRelay.Json.Value
import ChatRelay.Subscription

namespace ChatRelay

inductive Reply where
  | ready
  | updated (requestId : Option String) (subscription : Subscription)
  | rejected (requestId : Option String) (fault : Fault)
deriving DecidableEq, Inhabited

namespace Reply

def protocolVersion : Nat := 1

def toJson : Reply → Json
  | ready =>
    .mk [("type", .string "ready"), ("version", .nat protocolVersion), ("chatIDs", .strings [])]
  | updated requestId subscription =>
    .mkSome [
      ("type", some (.string "subscriptions.updated")),
      ("requestID", requestId.map .string),
      ("chatIDs", some (.strings subscription.chatIds))]
  | rejected requestId fault =>
    .mkSome [
      ("type", some (.string "error")),
      ("requestID", requestId.map .string),
      ("code", some (.string fault.code.name)),
      ("message", some (.string fault.message))]

end Reply

end ChatRelay

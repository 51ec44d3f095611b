import ChatRelay.Fault
import ChatRelay.Source

namespace ChatRelay

inductive HubError where
  | subscribe (cause : SourceError)
  | shutDown
deriving DecidableEq, Inhabited

namespace HubError

def message : HubError → String
  | subscribe cause => "Failed to subscribe to chat events: " ++ cause.message
  | shutDown => "Event hub has been shut down"

def fault (e : HubError) : Fault := { code := .internalError, message := e.message }

end HubError

end ChatRelay

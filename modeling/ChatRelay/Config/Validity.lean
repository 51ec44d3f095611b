import ChatRelay.Config.Basic
import ChatRelay.Net.SocketAddress

namespace ChatRelay.Config

inductive Defect where
  | missing (name : String)
  | zeroNumber
  | invalidAddress (text : String)
  | zero (name : String)
  | debounceTooLong
deriving DecidableEq

namespace Defect

def message : Defect → String
  | missing name => "Required configuration missing: " ++ name
  | zeroNumber => "Invalid port number"
  | invalidAddress text => "Invalid bind address: " ++ text
  | zero name => name ++ " must be greater than zero"
  | debounceTooLong => "Duplicate debounce window must be shorter than fingerprint retention"

-- The message where a whole configuration is refused.
def refusal (d : Defect) : String := "Validation failed: " ++ d.message

end Defect

def Server.address (s : Server) : Except Defect Net.SocketAddress :=
  let text := s.host ++ ":" ++ toString s.number
  match Net.SocketAddress.ofText? text with
  | some address => .ok address
  | none => .error (.invalidAddress text)

def Server.check (s : Server) : Except Defect Unit :=
  if s.number = 0 then .error .zeroNumber else s.address.map fun _ => ()

-- In production there has to be a token.
def Credentials.check (c : Credentials) (deployment : Deployment) : Except Defect Unit :=
  if deployment = .production ∧ c.token?.isNone then .error (.missing "AUTH__ACCESS_TOKEN")
  else .ok ()

def Realtime.positives (r : Realtime) : List (String × Nat) :=
  [("REALTIME__EVENT_QUEUE_CAPACITY", r.queueCapacity),
   ("REALTIME__KEEPALIVE_INTERVAL_SECS", r.keepaliveSeconds),
   ("REALTIME__PING_TIMEOUT_SECS", r.pingTimeoutSeconds),
   ("REALTIME__WRITE_TIMEOUT_SECS", r.writeTimeoutSeconds),
   ("REALTIME__MAX_MESSAGE_BYTES", r.maxMessageBytes),
   ("REALTIME__DUPLICATE_DEBOUNCE_MS", r.debounceMillis),
   ("REALTIME__FINGERPRINT_RETENTION_SECS", r.retentionSeconds),
   ("REALTIME__FINGERPRINT_PRUNE_INTERVAL_SECS", r.pruneSeconds)]

def Realtime.check (r : Realtime) : Except Defect Unit :=
  match r.positives.find? (·.2 = 0) with
  | some (name, _) => .error (.zero name)
  | none =>
    if r.retentionSeconds * 1000 ≤ r.debounceMillis then .error .debounceTooLong else .ok ()

def check (c : Config) : Except Defect Unit := do
  c.server.check
  c.credentials.check c.server.deployment
  c.realtime.check

end ChatRelay.Config

import ChatRelay.Config.Variables
import ChatRelay.Http.Access
import ChatRelay.Hub.Settings
import ChatRelay.Text.Blank
import ChatRelay.Text.Case

namespace ChatRelay

inductive Deployment where
  | development | staging | production
deriving DecidableEq, Inhabited

inductive LogFormat where
  | pretty | json
deriving DecidableEq, Inhabited

namespace Config

structure Server where
  host : String := "127.0.0.1"
  number : Nat := 23373
  deployment : Deployment := .development
  logLevel : String := "info,beeper_realtime=debug"
  logFormat : LogFormat := .pretty
deriving DecidableEq, Inhabited

structure Credentials where
  accessToken : Option String := none
  allowQueryToken : Bool := false
deriving DecidableEq, Inhabited

structure Realtime where
  queueCapacity : Nat := 512
  keepaliveSeconds : Nat := 30
  pingTimeoutSeconds : Nat := 5
  writeTimeoutSeconds : Nat := 5
  maxMessageBytes : Nat := 65536
  debounceMillis : Nat := 250
  retentionSeconds : Nat := 30
  pruneSeconds : Nat := 5
deriving DecidableEq, Inhabited

end Config

structure Config where
  server : Config.Server := {}
  credentials : Config.Credentials := {}
  realtime : Config.Realtime := {}
  recording : Option String := none
deriving DecidableEq, Inhabited

namespace Deployment

def all : List (String × Deployment) :=
  [("development", development), ("staging", staging), ("production", production)]

end Deployment

def LogFormat.all : List (String × LogFormat) := [("pretty", pretty), ("json", json)]

namespace Config

def trueWords : List String := ["true", "on", "yes"]
def falseWords : List String := ["false", "off", "no"]

-- A number in decimal digits, or a word for one or zero.
def number? (greatest : Nat) (text : String) : Option Nat :=
  let n :=
    if Text.lowerAscii text ∈ trueWords then some 1
    else if Text.lowerAscii text ∈ falseWords then some 0
    else match text.toList with
      | '+' :: rest => digits? rest
      | cs => digits? cs
  n.filter (· ≤ greatest)

def flag? (text : String) : Option Bool :=
  if Text.lowerAscii text ∈ "1" :: trueWords then some true
  else if Text.lowerAscii text ∈ "0" :: falseWords then some false
  else none

def choice? {α : Type} (all : List (String × α)) (text : String) : Option α :=
  (all.find? (·.1 = Text.lowerAscii text)).map (·.2)

namespace Entry

variable {α : Type}

-- The value of a member: the default if there is none, and nothing if it cannot be read.
def read (read? : String → Option α) (default : α) : Option Entry → Option α
  | none => some default
  | some (value text) => read? text
  | some _ => none

-- A value that need not be there.
def readOptional : Option Entry → Option (Option String)
  | none | some nothing => some none
  | some (value text) => some (some text)
  | some _ => none

-- One of several words. A single name of a member is such a word as well.
def readChoice (all : List (String × α)) (default : α) : Option Entry → Option α
  | none => some default
  | some (value text) => choice? all text
  | some (names [(name, _)]) => choice? all name
  | some _ => none

end Entry

def greatest16 : Nat := 0xFFFF
def greatest64 : Nat := 0xFFFF_FFFF_FFFF_FFFF

def loadServer (e : Entry) : Option Server := do
  let base : Server := {}
  return {
    host := ← Entry.read some base.host (e.member? 0 "host")
    number := ← Entry.read (number? greatest16) base.number (e.member? 1 "port")
    deployment := ← Entry.readChoice Deployment.all base.deployment (e.member? 2 "environment")
    logLevel := ← Entry.read some base.logLevel (e.member? 3 "log_level")
    logFormat := ← Entry.readChoice LogFormat.all base.logFormat (e.member? 4 "log_format") }

def loadCredentials (e : Entry) : Option Credentials := do
  return {
    accessToken := ← Entry.readOptional (e.member? 0 "access_token")
    allowQueryToken := ← Entry.read flag? false (e.member? 1 "allow_query_token") }

def loadRealtime (e : Entry) : Option Realtime := do
  let base : Realtime := {}
  let number (order : Nat) (name : String) (default : Nat) : Option Nat :=
    Entry.read (number? greatest64) default (e.member? order name)
  return {
    queueCapacity := ← number 0 "event_queue_capacity" base.queueCapacity
    keepaliveSeconds := ← number 1 "keepalive_interval_secs" base.keepaliveSeconds
    pingTimeoutSeconds := ← number 2 "ping_timeout_secs" base.pingTimeoutSeconds
    writeTimeoutSeconds := ← number 3 "write_timeout_secs" base.writeTimeoutSeconds
    maxMessageBytes := ← number 4 "max_message_bytes" base.maxMessageBytes
    debounceMillis := ← number 5 "duplicate_debounce_ms" base.debounceMillis
    retentionSeconds := ← number 6 "fingerprint_retention_secs" base.retentionSeconds
    pruneSeconds := ← number 7 "fingerprint_prune_interval_secs" base.pruneSeconds }

-- The configuration of these variables; nothing if one of them cannot be read.
def load? (v : Variables) : Option Config := do
  return {
    server := ← loadServer (← v.section? "server")
    credentials := ← loadCredentials (← v.section? "auth")
    realtime := ← loadRealtime (← v.section? "realtime")
    recording := ← Entry.readOptional ((← v.section? "replay").member? 0 "path") }

def isProduction (c : Config) : Bool := c.server.deployment == .production

-- The configured token; a blank one does not count.
def Credentials.token? (c : Credentials) : Option String := c.accessToken.bind Text.nonBlank?

-- A text for logs that does not give the token away.
def Credentials.redacted (c : Credentials) : String :=
  "AuthConfig \x7b access_token: "
    ++ (if c.token?.isSome then "Some(\"[REDACTED]\")" else "None")
    ++ ", allow_query_token: " ++ (if c.allowQueryToken then "true" else "false") ++ " \x7d"

def access (c : Config) : Http.Access where
  token := c.credentials.token?
  allowQueryToken := c.credentials.allowQueryToken

def hubSettings (c : Config) : HubSettings where
  queueCapacity := c.realtime.queueCapacity
  keepalive := c.realtime.keepaliveSeconds * 1000
  pingTimeout := c.realtime.pingTimeoutSeconds * 1000
  writeTimeout := c.realtime.writeTimeoutSeconds * 1000
  sightings :=
    { debounce := c.realtime.debounceMillis
      retention := c.realtime.retentionSeconds * 1000
      pruneInterval := c.realtime.pruneSeconds * 1000 }

end Config

end ChatRelay

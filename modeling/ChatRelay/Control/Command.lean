import ChatRelay.Control.Reply
import ChatRelay.Json.Tree

namespace ChatRelay

-- What a client may say: a single command, which replaces its subscription.
structure Command where
  requestId : Option String
  subscription : Subscription
deriving DecidableEq, Inhabited

inductive Rejection.Reason where
  | notJson
  | notTyped
  | unknownCommand (type : String)
  | unexpectedMember
  | requestIdNotText
  | chatIdsNotTexts
  | refused (refusal : Subscription.Refusal)
deriving DecidableEq

structure Rejection where
  requestId : Option String
  reason : Rejection.Reason
deriving DecidableEq

namespace Rejection

def Reason.message : Reason → String
  | notJson => "Invalid JSON payload"
  | notTyped => "Payload must be an object with a type field"
  | unknownCommand type => "Unsupported command type: " ++ type
  | unexpectedMember => "Invalid subscriptions payload"
  | requestIdNotText => "requestID must be a string"
  | chatIdsNotTexts => "chatIDs must be an array of strings"
  | refused refusal => refusal.message

def Reason.fault (r : Reason) : Fault :=
  match r with
  | unknownCommand _ => .invalidCommand r.message
  | _ => .invalidPayload r.message

def fault (r : Rejection) : Fault := r.reason.fault

def reply (r : Rejection) : Reply := .rejected r.requestId r.fault

-- A binary frame is never a command.
def ofBinary : Rejection := { requestId := none, reason := .notTyped }

end Rejection

namespace Command

def setSubscriptions : String := "subscriptions.set"

def memberNames : List String := ["type", "requestID", "chatIDs"]

-- The command of an object, or why it is none.
def check (v : Json) (members : List (String × Json)) : Except Rejection.Reason Subscription := do
  let some type := v.stringAt? ["type"] | throw .notTyped
  if type ≠ setSubscriptions then throw (.unknownCommand type)
  if members.any (·.1 ∉ memberNames) then throw .unexpectedMember
  if (v.get? "requestID").any (·.string?.isNone) then throw .requestIdNotText
  let some chatIds := (v.get? "chatIDs").bind Json.strings? | throw .chatIdsNotTexts
  (Subscription.ofChatIds chatIds).mapError .refused

-- Reads a frame. A request identifier that is a text comes back in either case.
def parse (text : String) : Except Rejection Command :=
  match Json.parse? text with
  | none => .error { requestId := none, reason := .notJson }
  | some (.object members) =>
    let v := Json.object members
    let requestId := v.stringAt? ["requestID"]
    match check v members with
    | .ok subscription => .ok { requestId, subscription }
    | .error reason => .error { requestId, reason }
  | some _ => .error { requestId := none, reason := .notTyped }

def reply (c : Command) : Reply := .updated c.requestId c.subscription

end Command

end ChatRelay

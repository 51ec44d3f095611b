import ChatRelay.Table

namespace ChatRelay

inductive FaultCode where
  | invalidCommand
  | invalidPayload
  | unauthorized
  | notFound
  | validationFailed
  | internalError
deriving DecidableEq, Inhabited

namespace FaultCode

def all : List FaultCode :=
  [invalidCommand, invalidPayload, unauthorized, notFound, validationFailed, internalError]

def name : FaultCode → String
  | invalidCommand => "INVALID_COMMAND"
  | invalidPayload => "INVALID_PAYLOAD"
  | unauthorized => "UNAUTHORIZED"
  | notFound => "NOT_FOUND"
  | validationFailed => "VALIDATION_ERROR"
  | internalError => "INTERNAL_ERROR"

def ofName? (s : String) : Option FaultCode := all.find? (·.name = s)

end FaultCode

-- A fault as it is reported to a client; the details have names.
structure Fault where
  code : FaultCode
  message : String
  details : Table String := ∅
deriving DecidableEq, Inhabited

namespace Fault

def invalidPayload (message : String) : Fault := { code := .invalidPayload, message }

def invalidCommand (message : String) : Fault := { code := .invalidCommand, message }

-- Adds a detail; a later one replaces an earlier one of its name.
def withDetail (f : Fault) (name value : String) : Fault :=
  { f with details := f.details.insert name value }

def display (f : Fault) : String := "[" ++ f.code.name ++ "] " ++ f.message

end Fault

end ChatRelay

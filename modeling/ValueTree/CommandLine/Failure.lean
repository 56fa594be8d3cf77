import ValueTree.Loader
import ValueTree.Payload.Inspect

/-!
# Failures

Why a command fails, and the line that says so. Errors show all their parts.
-/

namespace ValueTree

open Inspect

def Id.inspect (i : Id) : String := wrapped "ValueId" i.toText

def Token.inspect (t : Token) : String := wrapped "HashToken" t.toText

def SetError.inspect : SetError → String
  | .invalidType expected found =>
    fields "InvalidType" [("expected", expected.describe), ("found", found.describe)]
  | .range value low high =>
    fields "RangeError" [("value", toString value), ("min", toString low), ("max", toString high)]
  | .enumerator value => fields "EnumError" [("value", toString value)]
  | .access => "AccessError"

def StoreError.inspect : StoreError → String
  | .invalidId fault => wrapped "InvalidId" (Quoted.encode fault.message)
  | .notFound id => wrapped "NotFound" id.inspect
  | .notAContainer id => wrapped "NotAContainer" id.inspect
  | .tokenMismatch id token =>
    fields "TokenMismatch" [("id", id.inspect), ("token", token.inspect)]
  | .tokenCollision existing incoming =>
    fields "TokenCollision" [("existing", existing.inspect), ("incoming", incoming.inspect)]
  | .rejected id reason => fields "Rejected" [("id", id.inspect), ("source", reason.inspect)]

/-- A fault of the system has a number. -/
def FileFault.inspect (f : FileFault) : String :=
  let system (code : Nat) (kind : String) : String :=
    fields "Os" [("code", toString code), ("kind", kind), ("message", Quoted.encode f.message)]
  let plain (kind : String) : String :=
    fields "Error" [("kind", kind), ("message", Quoted.encode f.message)]
  match f with
  | .notFound => system 2 "NotFound"
  | .notADirectory => system 20 "NotADirectory"
  | .isADirectory => system 21 "IsADirectory"
  | .nameTooLong => system 36 "InvalidFilename"
  | .nulByte => plain "InvalidInput"
  | .notUtf8 => plain "InvalidData"

def SchemaError.inspect : SchemaError → String
  | .fileNotFound path => wrapped "FileNotFound" (Quoted.encode path)
  | .parse fault => wrapped "Parse" fault.inspect
  | .store error => wrapped "Store" error.inspect
  | .io fault => wrapped "Io" fault.inspect
  | .unknownAction code => wrapped "UnknownAction" (toString code.toInt)

namespace CommandLine

/-- Why a command fails. -/
inductive Failure
  | store (error : StoreError)
  | schema (error : SchemaError)
  /-- The text is no payload. -/
  | payload (fault : Json.Fault)
  /-- The authority did not answer in time, which is in seconds. -/
  | silence (timeout : Nat)
  /-- The authority did not take a value. -/
  | refusal (id : Id)
deriving DecidableEq, Repr

namespace Failure

/-- A time in its largest unit. -/
def seconds (n : Nat) : String := if n = 0 then "0ns" else toString n ++ "s"

def message : Failure → String
  | store error => error.inspect
  | schema error => error.inspect
  | payload fault => fault.inspect
  | silence timeout =>
    Quoted.encode ("no answer from the authority within " ++ seconds timeout)
  | refusal id => Quoted.encode ("authority refused the write to " ++ id.toText)

end Failure

end CommandLine

end ValueTree

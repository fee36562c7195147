import BufferLedger.Json.Record
import BufferLedger.Text.Quoted
import BufferLedger.Watch.Error

/-!
# Failures reported by the server

The status object with which a server reports a failure, and the failure of a watch that it
means.
-/

namespace BufferLedger.Api

open Json

structure Status where
  status : String
  message : String
  reason : String
  code : Nat
  deriving DecidableEq

namespace Status

def gone : Nat := 410

def asCode : Json → Decoded Empty Nat
  | .whole n => if 0 ≤ n ∧ n < twoTo 16 then .ok n.toNat else .error .mismatch
  | j => .error (otherForm j)

def optionalText (name : String) (put : String → Status → Status) : Field Empty Status :=
  ⟨name, false, fun j s => do return put (← asString j) s⟩

def fields : List (Field Empty Status) :=
  [.mandatory "status" asString fun x s => { s with status := x },
   optionalText "message" fun x s => { s with message := x },
   optionalText "reason" fun x s => { s with reason := x },
   .mandatory "code" asCode fun n s => { s with code := n }]

def decode : Json → Decoded Empty Status :=
  asRecord fields ⟨"", "", "", 0⟩

def text (s : Status) : String :=
  s.reason ++ " (" ++ toString s.code ++ "): " ++ s.message

def report (s : Status) : String :=
  let fields := [("status", Text.quoted s.status), ("message", Text.quoted s.message),
    ("reason", Text.quoted s.reason), ("code", toString s.code)]
  "ApiError: " ++ s.message ++ ": " ++ s.reason ++ " (ErrorResponse \x7b " ++
    ", ".intercalate (fields.map fun (name, value) => name ++ ": " ++ value) ++ " \x7d)"

/-- What the status means: the version has expired, or what else is given. -/
def toError (otherwise : WatchError) (s : Status) : WatchError :=
  if s.code = gone then .versionExpired s.text else otherwise

end Status

end BufferLedger.Api

/-!
# Failures of a watch
-/

namespace BufferLedger

inductive WatchError
  | listFailed (reason : String)
  | watchFailed (reason : String)
  | versionExpired (reason : String)
  | firstListFailed (name : String) (attempts : Nat)
  | cancelled (name : String)
  deriving DecidableEq

namespace WatchError

def message : WatchError → String
  | .listFailed reason => "List request failed: " ++ reason
  | .watchFailed reason => "Watch request failed: " ++ reason
  | .versionExpired reason => "Resource version is no longer available: " ++ reason
  | .firstListFailed name attempts =>
    "Initial list of " ++ name ++ " failed after " ++ toString attempts ++ " attempts"
  | .cancelled name => "Watch of " ++ name ++ " was cancelled"

/-- Whether only a new list helps, and resuming the watch does not. -/
def needsList : WatchError → Bool
  | .versionExpired _ => true
  | _ => false

end WatchError

end BufferLedger

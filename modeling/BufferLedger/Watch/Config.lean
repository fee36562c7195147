import BufferLedger.Time.DelayRange

/-!
# Settings of a watch
-/

namespace BufferLedger

inductive StartMode
  | waiting
  | atOnce
  deriving DecidableEq

structure WatchConfig where
  name : String
  relistDelay : DelayRange
  watchDelay : DelayRange
  /-- How often the first list is tried when starting waits for it; without a limit, until it
  succeeds. -/
  attempts : Option Nat
  deriving DecidableEq

namespace WatchConfig

def standard (name : String) : WatchConfig :=
  ⟨name, .millis 250 750, .millis 250 750, some 5⟩

end WatchConfig

end BufferLedger

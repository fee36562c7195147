import BufferLedger.Time.Duration

/-!
# Ranges of delays

Every retry waits for a delay drawn anew from a range, so that many clients that lost their
server at one moment do not return at one moment. The bounds of a range are put in order.
-/

namespace BufferLedger

structure DelayRange where
  min : Duration
  max : Duration
  deriving DecidableEq

namespace DelayRange

def between (a b : Duration) : DelayRange :=
  if a.toNanos ≤ b.toNanos then ⟨a, b⟩ else ⟨b, a⟩

def multiples? (unit : Duration) (a b : Nat) : Option DelayRange := do
  return between (← unit.times? a) (← unit.times? b)

def millis (a b : Nat) : DelayRange :=
  between (.ofMillis a) (.ofMillis b)

def pick (r : DelayRange) (draw : Nat) : Duration :=
  if r.min = r.max then r.min else .ofNanos draw

def contains (r : DelayRange) (d : Duration) : Bool :=
  r.min.toNanos ≤ d.toNanos && d.toNanos ≤ r.max.toNanos

def text (r : DelayRange) : String :=
  "[" ++ r.min.text ++ ", " ++ r.max.text ++ "]"

end DelayRange

end BufferLedger

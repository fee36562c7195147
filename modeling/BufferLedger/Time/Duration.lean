import BufferLedger.Text.Digits

/-!
# Durations

A duration is a number of seconds of sixty-four bits and a number of nanoseconds below one
second. What does not fit is no duration (`Duration.of?`, `Duration.times?`). The text of a
duration is in the largest unit of which there is at least one, without trailing zeros.
-/

namespace BufferLedger

open Text

def nanosPerSecond : Nat := tenTo 9

theorem nanosPerSecond_eq : nanosPerSecond = 1000000000 := rfl

structure Duration where
  seconds : UInt64
  nanos : UInt32
  nanos_lt : nanos.toNat < nanosPerSecond

namespace Duration

def toNanos (d : Duration) : Nat :=
  d.seconds.toNat * nanosPerSecond + d.nanos.toNat

instance : DecidableEq Duration := fun a b =>
  decidable_of_iff (a.seconds = b.seconds ∧ a.nanos = b.nanos) ⟨fun h => by
    cases a
    cases b
    simp_all, fun h => h ▸ ⟨rfl, rfl⟩⟩

def maxNanos : Nat := twoTo 64 * nanosPerSecond - 1

/-- The duration of a number of nanoseconds, as far as its words hold them. -/
def ofNanos (n : Nat) : Duration where
  seconds := UInt64.ofNat (n / nanosPerSecond)
  nanos := UInt32.ofNat (n % nanosPerSecond)
  nanos_lt := by
    have : n % nanosPerSecond < nanosPerSecond := Nat.mod_lt _ (by decide)
    rw [UInt32.toNat_ofNat_of_lt' (Nat.lt_trans this (by decide))]
    exact this

def ofNanos? (n : Nat) : Option Duration :=
  if n ≤ maxNanos then some (ofNanos n) else none

def of? (seconds nanos : Nat) : Option Duration :=
  ofNanos? (seconds * nanosPerSecond + nanos)

def times? (d : Duration) (n : Nat) : Option Duration :=
  ofNanos? (d.toNanos * n)

def ofMillis (n : Nat) : Duration :=
  ofNanos (n * tenTo 6)

def ofSeconds (n : Nat) : Duration :=
  ofNanos (n * nanosPerSecond)

def decimalText (whole fraction places : Nat) : String :=
  let ds := digits fraction
  let padded := List.replicate (places - ds.length) '0' ++ ds
  let kept := (padded.reverse.dropWhile (· == '0')).reverse
  if kept.isEmpty then toString whole else toString whole ++ "." ++ String.ofList kept

def text (d : Duration) : String :=
  let s := d.seconds.toNat
  let n := d.nanos.toNat
  if 0 < s then decimalText s n 9 ++ "s"
  else if tenTo 6 ≤ n then decimalText (n / tenTo 6) (n % tenTo 6) 6 ++ "ms"
  else if tenTo 3 ≤ n then decimalText (n / tenTo 3) (n % tenTo 3) 3 ++ "µs"
  else toString n ++ "ns"

end Duration

end BufferLedger

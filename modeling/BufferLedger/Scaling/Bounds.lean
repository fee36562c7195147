import BufferLedger.Quantity.Cpu
import BufferLedger.Json.Record

/-!
# Scaling bounds

The least, the greatest and the present amount of one resource of a virtual machine. CPU is
counted in thousandths of a core and memory in slots. Bounds read from an object are checked
(`Bounds.of`); their range can then be made narrower (`Bounds.narrow`), never wider.
-/

namespace BufferLedger

inductive Resource
  | cpu
  | memory
  deriving DecidableEq

def Resource.text : Resource → String
  | .cpu => "cpu"
  | .memory => "memory"

inductive ProfileError
  | missingValue (resource : Resource) (field : String)
  | invalidQuantity (field value : String)
  | minAboveMax (resource : Resource) (min max : Nat)
  | useOutOfBounds (resource : Resource) (min max use : Nat)
  | badOverride (cause : Json.DecodeError Quantity.CpuRefusal)
  | overrideOutOfBounds (resource : Resource) (min max specMin specMax : Nat)
  deriving DecidableEq

def rangeText (min max : Nat) : String :=
  "[" ++ toString min ++ ", " ++ toString max ++ "]"

/-- The wording of an error. What is wrong with the text of an annotation has none of its own,
unless it is an amount of CPU. -/
def ProfileError.message? : ProfileError → Option String
  | .missingValue resource field =>
    some (resource.text ++ " is missing its " ++ field ++ " value")
  | .invalidQuantity field value =>
    some ("invalid quantity for " ++ field ++ ": '" ++ value ++ "'")
  | .minAboveMax resource min max =>
    some (resource.text ++ " min " ++ toString min ++ " is greater than max " ++ toString max)
  | .useOutOfBounds resource min max use =>
    some (resource.text ++ " current value " ++ toString use ++ " is outside " ++
      rangeText min max)
  | .badOverride (.refused reason) => some reason.message
  | .badOverride _ => none
  | .overrideOutOfBounds resource min max specMin specMax =>
    some (resource.text ++ " bounds override " ++ rangeText min max ++
      " is outside the VM's bounds " ++ rangeText specMin specMax)

structure Bounds where
  min : Nat
  max : Nat
  use : Nat
  deriving DecidableEq

namespace Bounds

def require (resource : Resource) (field : String) (value : Option Nat) :
    Except ProfileError Nat :=
  match value with
  | some n => .ok n
  | none => .error (.missingValue resource field)

def of (resource : Resource) (min max use : Option Nat) : Except ProfileError Bounds := do
  let min ← require resource "min" min
  let max ← require resource "max" max
  let use ← require resource "use" use
  if max < min then .error (.minAboveMax resource min max)
  else if use < min ∨ max < use then .error (.useOutOfBounds resource min max use)
  else return ⟨min, max, use⟩

def buffer (b : Bounds) : Nat :=
  b.max - b.use

def sameRange (a b : Bounds) : Bool :=
  a.min == b.min && a.max == b.max

def narrow (resource : Resource) (min max : Nat) (b : Bounds) : Except ProfileError Bounds :=
  if max < min then .error (.minAboveMax resource min max)
  else if min < b.min ∨ b.max < max then
    .error (.overrideOutOfBounds resource min max b.min b.max)
  else .ok { b with min, max }

end Bounds

end BufferLedger

import BufferLedger.Settings
import BufferLedger.Text.Digits

/-!
# The command line

A command line is a list of words, and the only command is `run` with its options. The value of
an option is attached with an equals sign or is the next word. A value that stands alone is not
looked at before the option after it is met or the words end (`Reading.settle`), so of two
mistakes the one that is noticed first is reported.
-/

namespace BufferLedger

open Text

inductive Refusal
  | helpWanted
  | versionWanted
  | nothingAsked
  | unknownCommand
  | unknownArgument
  | missingValue
  | invalidValue
  | repeatedOption
  | surplusValue
  deriving DecidableEq

/-! ## Words -/

inductive Word
  | separator
  | option (name : String) (value : Option String)
  | letter (first : Char)
  | plain (text : String)

def splitValue (cs : List Char) : String × Option String :=
  let name := String.ofList (cs.takeWhile (· ≠ '='))
  match cs.dropWhile (· ≠ '=') with
  | [] => (name, none)
  | _ :: value => (name, some (String.ofList value))

def Word.ofText (word : String) : Word :=
  match word.toList with
  | ['-', '-'] => .separator
  | '-' :: '-' :: cs =>
    let (name, value) := splitValue cs
    .option name value
  | '-' :: c :: _ => .letter c
  | _ => .plain word

/-! ## Options -/

inductive Setting
  | kubeconfig
  | space
  | podDelayMin
  | podDelayMax
  | machineDelayMin
  | machineDelayMax
  | attempts
  | shutdownSeconds
  deriving DecidableEq

namespace Setting

def all : List Setting :=
  [.kubeconfig, .space, .podDelayMin, .podDelayMax, .machineDelayMin, .machineDelayMax,
    .attempts, .shutdownSeconds]

def name : Setting → String
  | .kubeconfig => "kubeconfig"
  | .space => "namespace"
  | .podDelayMin => "pod-retry-min-ms"
  | .podDelayMax => "pod-retry-max-ms"
  | .machineDelayMin => "vm-retry-min-ms"
  | .machineDelayMax => "vm-retry-max-ms"
  | .attempts => "initial-list-attempts"
  | .shutdownSeconds => "shutdown-timeout-secs"

def ofName? (name : String) : Option Setting :=
  all.find? (·.name == name)

def help : Setting → String
  | .kubeconfig => "Path to kubeconfig file (defaults to cluster config or ~/.kube/config)"
  | .space => "Kubernetes namespace to watch (empty for all namespaces)"
  | .podDelayMin =>
    "Minimum delay in milliseconds before retrying a failed pod list or watch"
  | .podDelayMax =>
    "Maximum delay in milliseconds before retrying a failed pod list or watch"
  | .machineDelayMin =>
    "Minimum delay in milliseconds before retrying a failed VM list or watch"
  | .machineDelayMax =>
    "Maximum delay in milliseconds before retrying a failed VM list or watch"
  | .attempts =>
    "Attempts for the initial list of each collection at startup (0 retries forever)"
  | .shutdownSeconds => "Seconds to wait for background tasks to stop on shutdown"

def number (limit : Nat) (value : List Char) : Except Refusal Nat :=
  match readUpTo? limit value with
  | some n => .ok n
  | none => .error .invalidValue

/-- A number of thirty-two bits. Zero may be written with a minus sign. -/
def word32 (value : String) : Except Refusal Nat :=
  match value.toList with
  | '-' :: cs => if !cs.isEmpty && cs.all (· == '0') then .ok 0 else .error .invalidValue
  | cs => number word32Max cs

def word64 (value : String) : Except Refusal Nat :=
  number word64Max value.toList

def put (value : String) (s : Settings) : Setting → Except Refusal Settings
  | .kubeconfig =>
    if value = "" then .error .missingValue else .ok { s with kubeconfig := some value }
  | .space => .ok { s with space := some value }
  | .podDelayMin => do return { s with podDelayMin := ← word32 value }
  | .podDelayMax => do return { s with podDelayMax := ← word32 value }
  | .machineDelayMin => do return { s with machineDelayMin := ← word32 value }
  | .machineDelayMax => do return { s with machineDelayMax := ← word32 value }
  | .attempts => do return { s with attempts := ← word32 value }
  | .shutdownSeconds => do return { s with shutdownSeconds := ← word64 value }

end Setting

structure Reading where
  settings : Settings
  given : List Setting
  pending : Option (Setting × Option String)

namespace Reading

def start : Reading := ⟨.standard, [], none⟩

def set (o : Setting) (value : String) (r : Reading) : Except Refusal Reading :=
  if o ∈ r.given then .error .repeatedOption
  else do return { r with settings := ← o.put value r.settings, given := o :: r.given }

def settle (r : Reading) : Except Refusal Reading :=
  match r.pending with
  | none => .ok r
  | some (_, none) => .error .missingValue
  | some (o, some value) => set o value { r with pending := none }

def readWords : List String → Reading → Except Refusal Reading
  | [], r => r.settle
  | w :: rest, r =>
    match Word.ofText w with
    | .separator => if rest.isEmpty then r.settle else .error .unknownArgument
    | .option "help" none => do
      let _ ← r.settle
      .error .helpWanted
    | .option "help" (some _) => .error .surplusValue
    | .option name value =>
      match Setting.ofName? name, value with
      | none, _ => .error .unknownArgument
      | some o, some value => do readWords rest (← (← r.settle).set o value)
      | some o, none => do readWords rest { ← r.settle with pending := some (o, none) }
    | .letter 'h' => do
      let _ ← r.settle
      .error .helpWanted
    | .letter _ => .error .unknownArgument
    | .plain text =>
      match r.pending with
      | some (o, none) => readWords rest { r with pending := some (o, some text) }
      | _ => .error .unknownArgument

end Reading

/-! ## Commands -/

namespace CommandLine

def helpFor : List String → Refusal
  | [] | ["run"] | ["help"] => .helpWanted
  | _ => .unknownCommand

def runWords : List String → Except Refusal (List String)
  | [] => .error .nothingAsked
  | w :: rest =>
    match Word.ofText w with
    | .separator =>
      match rest with
      | [] => .error .nothingAsked
      | "run" :: _ | "help" :: _ => .error .unknownArgument
      | _ => .error .unknownCommand
    | .option "help" none | .letter 'h' => .error .helpWanted
    | .option "version" none | .letter 'V' => .error .versionWanted
    | .option "help" (some _) | .option "version" (some _) => .error .surplusValue
    | .option _ _ | .letter _ => .error .unknownArgument
    | .plain "run" => .ok rest
    | .plain "help" => .error (helpFor rest)
    | .plain _ => .error .unknownCommand

/-- The settings of a run from its words. The environment may name the file that the words do
not name. -/
def readRun (environment : Option String) (words : List String) : Except Refusal Settings := do
  let r ← Reading.start.readWords words
  match environment with
  | some file =>
    if Setting.kubeconfig ∈ r.given then return r.settings
    else Setting.put file r.settings .kubeconfig
  | none => return r.settings

def read (environment : Option String) (words : List String) : Except Refusal Settings := do
  readRun environment (← runWords words)

def helpLine (o : Setting) : String :=
  "  --" ++ o.name ++ " <value>\n      " ++ o.help ++ "\n"

def help : String :=
  "Usage: run [options]\n\nOptions:\n" ++ String.join (Setting.all.map helpLine) ++
    "  -h, --help\n      Print help\n"

end CommandLine

end BufferLedger

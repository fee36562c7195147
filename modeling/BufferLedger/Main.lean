import BufferLedger.Api.Connection
import BufferLedger.Api.Server
import BufferLedger.Application
import BufferLedger.CommandLine
import BufferLedger.Version

/-!
# The program

Reads the command line and the kubeconfig file, and starts the application. The program has no
transport of its own, so every server is out of reach of it.
-/

namespace BufferLedger.Main

def refusalText : Refusal → String × UInt32
  | .helpWanted => (CommandLine.help, 0)
  | .versionWanted => (Version.current.text ++ "\n", 0)
  | .nothingAsked => (CommandLine.help, 2)
  | .unknownCommand => ("error: unrecognized subcommand\n", 2)
  | .unknownArgument => ("error: unexpected argument\n", 2)
  | .missingValue => ("error: a value is required\n", 2)
  | .invalidValue => ("error: invalid value\n", 2)
  | .repeatedOption => ("error: an argument cannot be used multiple times\n", 2)
  | .surplusValue => ("error: unexpected value\n", 2)

def contents? (path : String) : IO (Option Octets) := do
  try
    return some (← IO.FS.readBinFile path).toList
  catch _ => return none

def text? (path : String) : IO (Option String) := do
  return (← contents? path).bind Octets.text?

def readFiles (paths : List String) : IO Api.Files := do
  let mut found : OrderedMap String Octets := .empty
  for path in paths do
    if let some bytes ← contents? path then
      found := found.insert path bytes
  let files := found
  return files.get?

def leadingNumber (text : String) : Nat :=
  Text.ofDigits (text.toList.takeWhile Text.isDigit)

def now : IO Moment := do
  let boot := match ((← text? "/proc/stat").getD "").splitOn "btime " with
    | _ :: rest :: _ => leadingNumber rest
    | _ => 0
  return ⟨boot + leadingNumber ((← text? "/proc/uptime").getD ""), false⟩

def connect (s : Settings) : IO (Except Api.ConnectionError Api.Connection) := do
  match s.kubeconfig with
  | some path =>
    let text ← text? path
    let files ← readFiles ((text.map Api.Connection.otherFiles).getD [])
    return Api.Connection.ofFile (← now) files path text
  | none =>
    let home := (← IO.getEnv "HOME").getD ""
    let text ← text? (home ++ "/.kube/config")
    let files ← readFiles ((text.map Api.Connection.otherFiles).getD [])
    return Api.Connection.ofHome (← now) files text

def noServer (k : Api.ObjectKind) (s : Settings) : Api.Server := ⟨false, ⟨k, s.space⟩, []⟩

def startFailure? (s : Settings) : Option StartFailure :=
  let limit := s.attemptLimit
  let pods := noServer .pods s
  let machines := noServer .machines s
  match (Launch.start s (pods.script limit) (machines.script limit)).application s with
  | .ok _ => none
  | .error e => some e

def fail (message : String) : IO UInt32 := do
  IO.eprintln ("Error: " ++ message)
  return 1

def givenUp : UInt32 := 101

def run (s : Settings) : IO UInt32 := do
  match ← connect s with
  | .error .unsendable =>
    IO.eprintln Api.ConnectionError.unsendable.reason
    return givenUp
  | .error e => fail ("Failed to initialize Kubernetes client: " ++ e.message)
  | .ok _ =>
    match startFailure? s with
    | some e => fail e.message
    | none => return 0

def refuse (r : Refusal) : IO UInt32 := do
  let (text, status) := refusalText r
  if status = 0 then IO.print text else IO.eprint text
  return status

end BufferLedger.Main

def main (args : List String) : IO UInt32 := do
  match BufferLedger.CommandLine.read (← IO.getEnv "KUBECONFIG") args with
  | .error r => BufferLedger.Main.refuse r
  | .ok s => BufferLedger.Main.run s

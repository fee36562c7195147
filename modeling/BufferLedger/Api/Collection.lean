import BufferLedger.Api.Address
import BufferLedger.Cluster.Pod
import BufferLedger.Cluster.VirtualMachine
import BufferLedger.Text.Form

/-!
# Where collections are found

The group, version and names of a kind of object, and the path of its collection on the server,
for one namespace or for all.
-/

namespace BufferLedger.Api

structure ObjectKind where
  group : String
  version : String
  kind : String
  plural : String

namespace ObjectKind

def apiVersion (k : ObjectKind) : String :=
  if k.group = "" then k.version else k.group ++ "/" ++ k.version

def path (k : ObjectKind) (space : Option String) : String :=
  let root := if k.group = "" then "/api/" else "/apis/"
  let inner := match space with
    | some s => "namespaces/" ++ s ++ "/"
    | none => ""
  root ++ k.apiVersion ++ "/" ++ inner ++ k.plural

def pods : ObjectKind := ⟨"", "v1", "Pod", "pods"⟩

def machines : ObjectKind := ⟨"vm.neon.tech", "v1", "VirtualMachine", "virtualmachines"⟩

end ObjectKind

structure Request where
  path : String
  parameters : List String
  deriving DecidableEq

namespace Request

def splitQuery (query : List Char) : List String :=
  ((String.ofList query).splitOn "&").filter (· ≠ "")

def ofAddress? (address : String) : Option Request :=
  if Address.valid address then
    some ⟨String.ofList (Address.pathOf address.toList),
      splitQuery (Address.queryOf address.toList)⟩
  else none

def address (path : String) (parameters : List (String × String)) : String :=
  path ++ "?" ++
    String.join (parameters.map fun (name, value) => "&" ++ name ++ "=" ++ Text.Form.encode value)

/-- The server ends a watch by itself after this many seconds. -/
def watchSeconds : Nat := 290

def list? (k : ObjectKind) (space : Option String) : Option Request :=
  ofAddress? (address (k.path space) [])

def watch? (k : ObjectKind) (space : Option String) (version : String) : Option Request :=
  ofAddress? <| address (k.path space)
    [("watch", "true"), ("timeoutSeconds", toString watchSeconds),
     ("allowWatchBookmarks", "true"), ("resourceVersion", version)]

end Request

end BufferLedger.Api

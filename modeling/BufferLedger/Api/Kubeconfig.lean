import BufferLedger.Yaml.Document
import BufferLedger.Yaml.Record

/-!
# Kubeconfig files

A kubeconfig file names clusters, users and contexts, which pair a cluster with a user, and says
which context is the current one. A file of several documents is read as one: an entry of a
later document counts if no earlier one has its name.
-/

namespace BufferLedger.Api

open Yaml

structure Material where
  data : Option String
  file : Option String

structure ClusterEntry where
  server : Option String
  authority : Material
  proxy : Option String

structure TokenProvider where
  name : String
  config : OrderedMap String String

structure UserEntry where
  username : Option String
  password : Option String
  token : Option String
  tokenFile : Option String
  certificate : Material
  key : Material
  impersonated : Option String
  groups : List String
  provider : Option TokenProvider
  external : Bool

structure ContextEntry where
  cluster : String
  user : String
  space : Option String

structure Named (α : Type) where
  name : String
  content : Option α

structure Kubeconfig where
  format : Option String
  kind : Option String
  clusters : List (Named ClusterEntry)
  users : List (Named UserEntry)
  contexts : List (Named ContextEntry)
  current : Option String

namespace Kubeconfig

/-! ## Reading -/

def asExtension : Read Unit :=
  asRecord
    [.mandatory "name" asString fun _ u => u,
     .mandatory "extension" asBare fun _ u => u] ()

def extensions {σ : Type} : Yaml.Field σ :=
  .checked "extensions" (asList asExtension)

def asPreferences : Read Unit :=
  asRecord [.checked "colors" asFlag, extensions] ()

def clusterFields : List (Yaml.Field ClusterEntry) :=
  [.optional "server" asString fun x c => { c with server := x },
   .optional "certificate-authority" asString fun x c => { c with authority.file := x },
   .optional "certificate-authority-data" asString fun x c => { c with authority.data := x },
   .optional "proxy-url" asString fun x c => { c with proxy := x },
   .checked "insecure-skip-tls-verify" asFlag,
   .checked "tls-server-name" asString,
   extensions]

def asCluster : Read ClusterEntry :=
  asRecord clusterFields ⟨none, ⟨none, none⟩, none⟩

def asProvider : Read TokenProvider :=
  asRecord
    [.mandatory "name" asString fun x p => { p with name := x },
     .standard "config" asTexts fun x p => { p with config := x }]
    ⟨"", .empty⟩

def asInteraction : Read Unit := fun x =>
  let word : String := match x with
    | .string s => s
    | .tagged s x =>
      match x.untag with
      | .null => String.ofList (Value.bareName s)
      | _ => ""
    | _ => ""
  if ["Never", "IfAvailable", "Always"].contains word then some () else none

def asProgram : Read Unit :=
  asRecord
    [.checked "apiVersion" asString,
     .checked "command" asString,
     .checked "args" (asList asString),
     .checked "env" (asList asTexts),
     .checked "interactiveMode" asInteraction,
     .standard "provideClusterInfo" asFlag fun _ u => u] ()

def userFields : List (Yaml.Field UserEntry) :=
  [.optional "username" asString fun x u => { u with username := x },
   .optional "password" asString fun x u => { u with password := x },
   .optional "token" asString fun x u => { u with token := x },
   .optional "tokenFile" asString fun x u => { u with tokenFile := x },
   .optional "client-certificate" asString fun x u => { u with certificate.file := x },
   .optional "client-certificate-data" asString fun x u => { u with certificate.data := x },
   .optional "client-key" asString fun x u => { u with key.file := x },
   .optional "client-key-data" asString fun x u => { u with key.data := x },
   .optional "as" asString fun x u => { u with impersonated := x },
   .optional "as-groups" (asList asString) fun x u => { u with groups := x.getD [] },
   .optional "auth-provider" asProvider fun x u => { u with provider := x },
   .optional "exec" asProgram fun x u => { u with external := x.isSome }]

def asUser : Read UserEntry :=
  asRecord userFields
    ⟨none, none, none, none, ⟨none, none⟩, ⟨none, none⟩, none, [], none, false⟩

def asContext : Read ContextEntry :=
  asRecord
    [.mandatory "cluster" asString fun x c => { c with cluster := x },
     .mandatory "user" asString fun x c => { c with user := x },
     .optional "namespace" asString fun x c => { c with space := x },
     extensions]
    ⟨"", "", none⟩

def asNamed {α : Type} (field : String) (read : Read α) : Read (Named α) :=
  asRecord
    [.mandatory "name" asString fun x e => { e with name := x },
     .optional field read fun x e => { e with content := x }]
    ⟨"", none⟩

def fields : List (Yaml.Field Kubeconfig) :=
  [.optional "apiVersion" asString fun x k => { k with format := x },
   .optional "kind" asString fun x k => { k with kind := x },
   .optional "clusters" (asList (asNamed "cluster" asCluster)) fun x k =>
     { k with clusters := x.getD [] },
   .optional "users" (asList (asNamed "user" asUser)) fun x k => { k with users := x.getD [] },
   .optional "contexts" (asList (asNamed "context" asContext)) fun x k =>
     { k with contexts := x.getD [] },
   .optional "current-context" asString fun x k => { k with current := x },
   .checked "preferences" asPreferences,
   extensions]

def empty : Kubeconfig := ⟨none, none, [], [], [], none⟩

def decode : Read Kubeconfig :=
  asRecord fields empty

def contradict (a b : Option String) : Bool :=
  match a, b with
  | some a, some b => a ≠ b
  | _, _ => false

/-- Two documents as one. Entries are looked for in order, so those of the first come first. -/
def merge? (a b : Kubeconfig) : Option Kubeconfig :=
  if contradict a.kind b.kind || contradict a.format b.format then none
  else some
    { format := a.format <|> b.format
      kind := a.kind <|> b.kind
      clusters := a.clusters ++ b.clusters
      users := a.users ++ b.users
      contexts := a.contexts ++ b.contexts
      current := a.current <|> b.current }

def ofText? (text : String) : Option Kubeconfig := do
  let documents ← Yaml.documents? (dropMark text.toList)
  let configs ← documents.mapM decode
  match configs with
  | [] => return empty
  | c :: rest => rest.foldlM merge? c

/-! ## The current context -/

def find? {α : Type} (name : String) (entries : List (Named α)) : Option α :=
  (entries.find? (·.name == name)).bind (·.content)

structure Target where
  context : ContextEntry
  cluster : ClusterEntry
  user : UserEntry

def target? (k : Kubeconfig) : Option Target := do
  let context ← find? (← k.current) k.contexts
  return ⟨context, ← find? context.cluster k.clusters, ← find? context.user k.users⟩

end Kubeconfig

end BufferLedger.Api

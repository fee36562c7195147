import BufferLedger.Api.Address
import BufferLedger.Api.Kubeconfig
import BufferLedger.Credentials.Bundle
import BufferLedger.Credentials.Identity
import BufferLedger.Credentials.TrustAnchor
import BufferLedger.Time.Moment

/-!
# Connecting to a server

From a kubeconfig file to what is needed to talk to the server that it names. There are three
stages: the file is read, the current context is made into the parameters of a connection, and
a client is made of the user's credentials.
-/

namespace BufferLedger.Api

open Text

inductive ConnectionError
  | unreadable (path : String)
  | incomplete (path : String)
  | unusable
  | unsendable
  | notFound
  deriving DecidableEq

namespace ConnectionError

def reason : ConnectionError → String
  | .unreadable path => "Failed to read kubeconfig file: " ++ path
  | .incomplete path => "Failed to create config from kubeconfig: " ++ path
  | .unusable => "Failed to create Kubernetes client from custom kubeconfig"
  | .unsendable => "token is not valid header"
  | .notFound => "Failed to create Kubernetes client"

def message (e : ConnectionError) : String :=
  "Failed to connect to Kubernetes API: " ++ e.reason

end ConnectionError

structure Connection where
  server : String
  space : String
  deriving DecidableEq

abbrev Files := String → Option Octets

def finishLine (bytes : Octets) : Octets :=
  if bytes.getLast?.all (· == 0x0A) then bytes else bytes ++ [0x0A]

/-- The text that some material stands for; data in the file itself wins. -/
def Material.bytes? (files : Files) (m : Material) : Option Octets :=
  finishLine <$> match m.data with
    | some data => Base64.decode? true data.toList
    | none => m.file.bind files

namespace Connection

def trusted? (files : Files) (m : Material) : Option (List Octets) :=
  if m.data.isSome || m.file.isSome then (m.bytes? files).bind Credentials.certificates?
  else some []

def proxyOk : Option String → Bool
  | some address => address = "" || Address.valid address
  | none => true

def ofTarget? (files : Files) (t : Kubeconfig.Target) : Option Connection := do
  let server ← t.cluster.server
  let _ ← trusted? files t.cluster.authority
  if Address.valid server && proxyOk t.cluster.proxy then
    return ⟨server, t.context.space.getD "default"⟩
  else none

/-- Whether a certificate and a key serve as an identity. Unless both are there, there is none
and nothing is wrong. -/
def identityOk (files : Files) (u : UserEntry) : Bool :=
  match u.certificate.bytes? files, u.key.bytes? files with
  | some certificate, some key => Credentials.Identity.accepts (key ++ certificate)
  | _, _ => true

inductive Login
  | other
  | token (text : String)

def tokenReserve : Nat := 60

def providerLogin? (now : Moment) (p : TokenProvider) : Option Login :=
  let lasting : Option Login := do return .token (← p.config.get? "id-token")
  let fresh : Option Login := do
    let _ ← p.config.get? "access-token"
    let expiry ← Moment.ofText? (← p.config.get? "expiry")
    if now.seconds + tokenReserve < expiry.seconds then return .other else none
  match p.name with
  | "oidc" => lasting
  | "gcp" => lasting <|> fresh
  | _ => none

/-- How the user is identified; nothing if that is not possible. No program is run for it. -/
def login? (now : Moment) (files : Files) (u : UserEntry) : Option Login :=
  match u.provider, u.token, u.tokenFile with
  | some p, _, _ => providerLogin? now p
  | none, token, file =>
    if u.username.isSome && u.password.isSome then some .other
    else match token, file with
      | some t, _ => some (.token t)
      | none, some file => ((files file).bind Octets.text?).map fun _ => .other
      | none, none => if u.external then none else some .other

def isHeaderValue (s : String) : Bool :=
  s.toList.all fun c => c == '\t' || (0x20 ≤ c.toNat && c.toNat ≠ 0x7F)

def impersonationOk (u : UserEntry) : Bool :=
  u.impersonated.all isHeaderValue && u.groups.all isHeaderValue

def materialOk (files : Files) (t : Kubeconfig.Target) : Bool :=
  impersonationOk t.user && identityOk files t.user &&
    ((trusted? files t.cluster.authority).getD []).all Credentials.TrustAnchor.accepts

def clientFault? (now : Moment) (files : Files) (t : Kubeconfig.Target) :
    Option ConnectionError :=
  match login? now files t.user with
  | none => some .unusable
  | some (.token text) =>
    if !isHeaderValue text then some .unsendable
    else if materialOk files t then none else some .unusable
  | some .other => if materialOk files t then none else some .unusable

def otherFiles (text : String) : List String :=
  match (Kubeconfig.ofText? text).bind Kubeconfig.target? with
  | some t =>
    [t.cluster.authority.file, t.user.certificate.file, t.user.key.file,
      t.user.tokenFile].filterMap id
  | none => []

def ofFile (now : Moment) (files : Files) (path : String) (text : Option String) :
    Except ConnectionError Connection :=
  match text.bind Kubeconfig.ofText? with
  | none => .error (.unreadable path)
  | some k =>
    match k.target? with
    | none => .error (.incomplete path)
    | some t =>
      match ofTarget? files t with
      | none => .error (.incomplete path)
      | some c =>
        match clientFault? now files t with
        | some e => .error e
        | none => .ok c

def ofHome (now : Moment) (files : Files) (text : Option String) :
    Except ConnectionError Connection :=
  (ofFile now files "" text).mapError fun
    | .unsendable => .unsendable
    | _ => .notFound

end Connection

end BufferLedger.Api

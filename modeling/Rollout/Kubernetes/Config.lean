/-
The settings for a cluster from a configuration file.

A file lists clusters, users and contexts by name and says which context is current.

* `Config.decoder` reads the lists;
* `Config.resolve` follows the names from the current context to one cluster and one user;
* `Connection.ofYamlText` and `Connection.load` do both.

Design notes: next to its name an entry has a part of its own, which is kept as a value first.  So
the entry's other members have to be readable, though nobody asks for them.
-/
import Rollout.Action
import Rollout.Text.Base64
import Rollout.Yaml.Value

namespace Rollout.Kubernetes

open Yaml (Value)

/-! ### The lists -/

/-- A cluster as listed. -/
structure ClusterEntry where
  server : String
  /-- The certificate authority in base64. -/
  authority : Option String := none
  insecure : Bool := false
  deriving DecidableEq, Repr, Inhabited

/-- A context as listed: a cluster and perhaps a user by name. -/
structure ContextEntry where
  cluster : String
  user : Option String := none
  ns : Option String := none
  deriving DecidableEq, Repr, Inhabited

/-- A user as listed; certificate and key in base64. -/
structure UserEntry where
  token : Option String := none
  certificate : Option String := none
  key : Option String := none
  deriving DecidableEq, Repr, Inhabited

/-- A configuration file. -/
structure Config where
  current : Option String := none
  clusters : List (String × ClusterEntry) := []
  contexts : List (String × ContextEntry) := []
  users : List (String × UserEntry) := []
  deriving DecidableEq, Repr, Inhabited

open Yaml.Value in
def ClusterEntry.decoder : Value.Decoder ClusterEntry := fun v => do
  let names := ["server", "certificate-authority-data", "insecure-skip-tls-verify"]
  let found ← fields names v
  .ok ⟨← required names found 0 asText, ← field found 1 (asOptional asText) none,
    ← field found 2 asBool false⟩

open Yaml.Value in
def ContextEntry.decoder : Value.Decoder ContextEntry := fun v => do
  let names := ["cluster", "user", "namespace"]
  let found ← fields names v
  .ok ⟨← required names found 0 asText, ← field found 1 (asOptional asText) none,
    ← field found 2 (asOptional asText) none⟩

open Yaml.Value in
def UserEntry.decoder : Value.Decoder UserEntry := fun v => do
  let found ← fields ["token", "client-certificate-data", "client-key-data"] v
  let optional := asOptional asText
  .ok ⟨← field found 0 optional none, ← field found 1 optional none, ← field found 2 optional none⟩

/-- How deep the members of an entry lie. -/
def entryDepth : Nat := 3

/-- An entry: its name, and its part under another name, which may have a default. -/
def entry (part : String) (item : Value.Decoder α) (default : Option α) :
    Yaml.Decoder (String × α) := fun d n => do
  let members ← d.members ["name", part] n "an entry"
  match members.lookup "name" with
  | none => throw (.missingField "name")
  | some n =>
    let name ← Yaml.Decoder.text d n
    let rest ← (members.filter (·.1 != "name")).mapM fun (key, n) => do
      pure (key, ← d.value (Yaml.maxDepth - entryDepth) n)
    match rest.lookup part, default with
    | some v, _ => pure (name, ← item v)
    | none, some a => pure (name, a)
    | none, none => throw (.missingField part)

def Config.decoder : Yaml.Decoder Config :=
  .record "Config" (Config.mk
    <$> Yaml.Fields.field "current-context" (.optional .text) none
    <*> Yaml.Fields.field "clusters" (.list (entry "cluster" ClusterEntry.decoder none)) []
    <*> Yaml.Fields.field "contexts" (.list (entry "context" ContextEntry.decoder none)) []
    <*> Yaml.Fields.field "users" (.list (entry "user" UserEntry.decoder (some {}))) [])

/-! ### The current context -/

/-- The first entry of a name. -/
def entryNamed (kind : String) (entries : List (String × α)) (name : String) :
    Except ClusterError α :=
  match entries.lookup name with
  | some a => .ok a
  | none => .error (.config s!"{kind} '{name}' not found")

/-- The bytes of a field in base64, blanks around it aside. -/
def decodeField (field : String) : Option String → Except ClusterError (Option Bytes)
  | none => .ok none
  | some s =>
    match Text.Base64.decode? (Text.trim s) with
    | some bs => .ok (some bs)
    | none => .error (.config s!"invalid {field}: not canonical base64")

/-- The server without slashes at its end. -/
def trimServer (s : String) : String := Text.trimRight (· == '/') s

/-- The settings of the current context. -/
def Config.resolve (c : Config) : Except ClusterError Connection := do
  let current ← match c.current with
    | none | some "" => .error (.config "kubeconfig has no current-context")
    | some name => .ok name
  let context ← entryNamed "context" c.contexts current
  let cluster ← entryNamed "cluster" c.clusters context.cluster
  let user ← match context.user with
    | some name => entryNamed "user" c.users name
    | none => .ok {}
  .ok {
    server := trimServer cluster.server
    ns := context.ns
    certificateAuthority := ← decodeField "certificate-authority-data" cluster.authority
    insecure := cluster.insecure
    token := user.token
    clientCertificate := ← decodeField "client-certificate-data" user.certificate
    clientKey := ← decodeField "client-key-data" user.key }

namespace Connection

/-- Reads the settings from the text of a configuration file. -/
def ofYamlText (text : String) : Except ClusterError Connection :=
  match Yaml.decodeText Config.decoder text with
  | .ok c => c.resolve
  | .error e => .error (.config s!"invalid kubeconfig: {e.message}")

/-- Reads the settings from a configuration file. -/
def load (path : String) : RunExcept ClusterError Connection := ExceptT.mk do
  let content := (← Run.take (.loadFile path)).bind fun bs =>
    match Utf8.decode? bs with
    | some text => Except.ok text
    | none => .error .notText
  return match content with
    | .ok text => ofYamlText text
    | .error e => .error (.config s!"cannot read kubeconfig {path}: {e.message}")

end Connection

end Rollout.Kubernetes

/-
The options of the command line.

An option has a long name, perhaps a letter, and it says whether a value goes with it.  Some may
also be given by a variable of the environment.
-/
import Rollout.Plan.Error

namespace Rollout.CommandLine

inductive Switch where
  | file
  | name
  | list
  | dryRun
  | delete
  | executor
  | attach
  | deploy
  | registryUrl
  | kubeconfig
  | ns
  | resourceGroup
  | workingDir
  | dump
  | logFilter
  | help
  | version
  deriving DecidableEq, Repr, Inhabited

/-- How a value goes with an option. -/
inductive Arity where
  /-- There is none. -/
  | flag
  /-- There has to be one: behind an equals sign, or the next argument. -/
  | value
  /-- There may be one behind an equals sign. -/
  | attached
  deriving DecidableEq, Repr, Inhabited

namespace Switch

/-- Every option. -/
def all : List Switch :=
  [file, name, list, dryRun, delete, executor, attach, deploy, registryUrl, kubeconfig, ns,
    resourceGroup, workingDir, dump, logFilter, help, version]

/-- The name behind two dashes. -/
def longName : Switch → String
  | file => "file"
  | name => "name"
  | list => "list"
  | dryRun => "dry-run"
  | delete => "delete"
  | executor => "executor"
  | attach => "attach"
  | deploy => "deploy"
  | registryUrl => "registry-url"
  | kubeconfig => "kubeconfig"
  | ns => "namespace"
  | resourceGroup => "resource-group"
  | workingDir => "working-dir"
  | dump => "dump"
  | logFilter => "log-filter"
  | help => "help"
  | version => "version"

/-- The letter behind one dash. -/
def letter? : Switch → Option Char
  | file => some 'f'
  | name => some 'n'
  | help => some 'h'
  | version => some 'V'
  | _ => none

/-- The option of a long name; no name may be shortened. -/
def ofLongName? (s : String) : Option Switch := all.find? (·.longName == s)

/-- The option of a letter. -/
def ofLetter? (c : Char) : Option Switch := all.find? (·.letter? == some c)

def arity : Switch → Arity
  | list | dryRun | delete | attach | help | version => .flag
  | deploy => .attached
  | _ => .value

/-- The value of an option that stands alone. -/
def presentValue : String := "true"

/-- The variable that stands in for an option. -/
def environmentName? : Switch → Option String
  | registryUrl => some "TOPO_REGISTRY_URL"
  | kubeconfig => some "KUBECONFIG"
  | ns => some "TOPO_NAMESPACE"
  | resourceGroup => some "TOPO_RESOURCE_GROUP"
  | workingDir => some "TOPO_WORKING_DIR"
  | _ => none

/-- The option may be given several times. -/
def repeats (o : Switch) : Bool := o == logFilter

/-- The option says where the specification comes from; exactly one such has to be given. -/
def isSource (o : Switch) : Bool := o == file || o == name || o == list

/-- The backend of a name. -/
def backendOf? (s : String) : Option Plan.Backend :=
  [.kubernetes, .aci, .docker].find? (·.name == s)

/-- A value that an option can have: a path is not empty, and a choice is one of its names. -/
def accepts : Switch → String → Bool
  | file, s | kubeconfig, s | workingDir, s | dump, s => !s.isEmpty
  | executor, s => (backendOf? s).isSome
  | deploy, s => s == "true" || s == "false"
  | _, _ => true

end Switch

end Rollout.CommandLine

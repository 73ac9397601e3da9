/-
What the arguments of the command line ask for.

A list of kubeconfig files is cut at colons, and the first that is no empty text counts.
-/
import Rollout.CommandLine.Arguments
import Rollout.Host.Path
import Rollout.Pattern.Parse
import Rollout.Pipeline.Error
import Rollout.Pipeline.Settings

namespace Rollout.CommandLine

open Pipeline (Settings Source)

/-- The first file in a list of kubeconfig files. -/
def firstKubeconfig (value : String) : Option String :=
  (value.splitOn ":").find? (!·.isEmpty)

/-- The kubeconfig file in a home directory. -/
def homeKubeconfig (home : String) : String :=
  Host.Path.join (Host.Path.join home ".kube") "config"

/-- A text that is not empty. -/
def nonEmpty (s : Option String) : Option String := s.filter (!·.isEmpty)

namespace Arguments

/-- A file comes before a name; without either the specifications are listed. -/
def source (a : Arguments) : Source :=
  match a.value? .file, a.value? .name with
  | some path, _ => .file path
  | none, some name => .registry name
  | none, none => .list

/-- Reads the patterns, up to the first bad one. -/
def logFilters (a : Arguments) : Except Pipeline.Error (List Pattern) :=
  (a.values .logFilter).mapM fun text =>
    match Pattern.parse? text with
    | some p => .ok p
    | none => .error (.badFilter text)

/-- The kubeconfig file: the first of those given, or the one at home. -/
def kubeconfig (lookup : String → Option String) (a : Arguments) : Option String :=
  match a.value? .kubeconfig with
  | some list => firstKubeconfig list
  | none => (nonEmpty (lookup "HOME")).map homeKubeconfig

/-- What the arguments ask for. -/
def settings (lookup : String → Option String) (color : Bool) (a : Arguments) :
    Except Pipeline.Error Settings := do
  .ok {
    source := a.source
    executor := ((a.value? .executor).bind Switch.backendOf?).getD .kubernetes
    dryRun := a.has .dryRun
    delete := a.has .delete
    deploy := a.value? .deploy != some "false"
    attach := a.has .attach
    registryUrl := nonEmpty (a.value? .registryUrl)
    kubeconfig := a.kubeconfig lookup
    ns := nonEmpty (a.value? .ns)
    resourceGroup := (a.value? .resourceGroup).getD Plan.defaultResourceGroup
    workingDir := a.value? .workingDir
    dump := a.value? .dump
    logFilters := ← a.logFilters
    color }

end Arguments

end Rollout.CommandLine

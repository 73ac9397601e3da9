/-
Plans for the command-line backends: an ordered list of command lines, one a service.

These backends can express a single container, without replication or sharding; container
instances have one port at most.
-/
import Rollout.Plan.Artifact
import Rollout.Plan.Options

open Rollout.Host (CommandLine)

namespace Rollout.Plan

/-- A command line that belongs to a service. -/
structure Invocation where
  service : String
  argv : CommandLine
  deriving DecidableEq, Repr, Inhabited

/-- The container of a service, if that is all there is to it. -/
def singleContainer (backend : Backend) (s : Spec.Service) : Except Error Spec.Container :=
  if 1 < s.replicas || s.sharding.isSome then
    .error (.unsupported backend s.name .replicationOrSharding)
  else match s.containers with
    | [] => .error (.noContainers s.name)
    | [c] => .ok c
    | _ => .error (.unsupported backend s.name .multipleContainers)

/-- The options that set the environment of a container. -/
def envArgs (c : Spec.Container) : CommandLine :=
  c.env.flatMap fun e => ["-e", s!"{e.name}={e.value}"]

namespace Docker

/-- Starts a container; every port is published under its own number. -/
def runLine (s : Spec.Service) : Except Error CommandLine := do
  let c ← singleContainer .docker s
  .ok (["docker", "run", "--name", s.name, "-d"]
    ++ s.ports.flatMap (fun p => ["-p", s!"{p.number}:{p.number}"])
    ++ envArgs c ++ [c.image])

def removeLine (s : Spec.Service) : Except Error CommandLine := do
  let _ ← singleContainer .docker s
  .ok ["docker", "rm", "-f", s.name]

def logsLine (service : String) : CommandLine :=
  ["docker", "logs", service]

end Docker

namespace Aci

/-- The option for the port of an instance. -/
def portArgs (s : Spec.Service) : Except Error CommandLine :=
  match s.ports with
  | [] => .ok []
  | [p] => .ok ["--port", toString p.number]
  | _ => .error (.unsupported .aci s.name .multiplePorts)

def createLine (group : String) (s : Spec.Service) (isPublic : Bool) :
    Except Error CommandLine := do
  let c ← singleContainer .aci s
  let port ← portArgs s
  .ok (["az", "container", "create", "-g", group, "-n", s.name, "--image", c.image]
    ++ port ++ envArgs c ++ if isPublic then ["--ip-address", "public"] else [])

def deleteLine (group : String) (s : Spec.Service) : Except Error CommandLine := do
  let _ ← singleContainer .aci s
  .ok ["az", "container", "delete", "-g", group, "-n", s.name, "--yes"]

def logsLine (group service : String) : CommandLine :=
  ["az", "container", "logs", "-g", group, "-n", service]

/-- The pause between two looks at the logs, in milliseconds. -/
def logsPause : Nat := 2000

end Aci

namespace Invocation

/-- One invocation a service, or the first error. -/
def ofServices (line : Spec.Service → Except Error CommandLine) (a : Spec.Application) :
    Except Error (List Invocation) :=
  a.services.mapM fun s => do .ok ⟨s.name, ← line s⟩

/-- Runs a command, or only says that it would. -/
def executeLine (dryRun : Bool) (argv : CommandLine) : RunExcept Error Unit := do
  if dryRun then
    printOrFail (Utf8.encode ("Would execute: " ++ " ".intercalate argv ++ "\n"))
  else
    let output ← orFail .command (Run.take (.command argv))
    printOrFail output.stdout
    if !output.success then throw (.command (output.failure argv))

/-- Runs every command in order, up to the first that fails. -/
def executeAll (dryRun : Bool) : List Invocation → RunExcept Error Unit
  | [] => pure ()
  | i :: rest => do
    executeLine dryRun i.argv
    executeAll dryRun rest

end Invocation

end Rollout.Plan

/-
Plans: what a backend will do to set an application up or take it down.

A target says where the application runs; `compile` turns a specification into a plan for it and
contacts nothing, `Plan.execute` and `Plan.dump` carry the plan out or write it down.
-/
import Rollout.Plan.Invocation
import Rollout.Plan.Operation

namespace Rollout

/-- Where an application is to run. -/
inductive Target where
  | kubernetes (connection : Kubernetes.Connection)
  | aci (resourceGroup : String)
  | docker
  deriving Repr, Inhabited

def Target.backend : Target → Plan.Backend
  | kubernetes _ => .kubernetes
  | aci _ => .aci
  | docker => .docker

/-- The steps of a plan, in order. -/
inductive Plan.Steps where
  | operations (connection : Kubernetes.Connection) (artifacts : Plan.Artifacts)
      (ops : List Plan.Operation)
  | invocations (backend : Plan.Backend) (calls : List Plan.Invocation)

structure Plan where
  mode : Plan.Mode
  steps : Plan.Steps

namespace Plan

/-- The plan for a specification. -/
def compile (t : Target) (o : Options) (mode : Mode) (a : Spec.Application) :
    Except Error Plan :=
  match t, mode with
  | .kubernetes c, .create => do
    .ok ⟨.create, .operations c (.of o.workingDir) (← createOperations o a)⟩
  | .kubernetes c, .delete => do
    .ok ⟨.delete, .operations c (.of o.workingDir) (← deleteOperations o a)⟩
  | .docker, .create => do
    .ok ⟨.create, .invocations .docker (← Invocation.ofServices Docker.runLine a)⟩
  | .docker, .delete => do
    .ok ⟨.delete, .invocations .docker (← Invocation.ofServices Docker.removeLine a)⟩
  | .aci group, .create => do
    let line := fun s => Aci.createLine group s (a.isPublic s)
    .ok ⟨.create, .invocations .aci (← Invocation.ofServices line a)⟩
  | .aci group, .delete => do
    .ok ⟨.delete, .invocations .aci (← Invocation.ofServices (Aci.deleteLine group) a)⟩

/-- Carries a plan out; a dry run changes nothing in the backend. -/
def execute (p : Plan) (dryRun : Bool) : RunExcept Error Unit :=
  match p.steps with
  | .operations c a ops => Operation.executeAll c a dryRun ops
  | .invocations _ calls => Invocation.executeAll dryRun calls

/-- Writes a plan into a directory, if it can be written down. -/
def dump (p : Plan) (dir : String) : RunExcept Error Unit :=
  match p.steps with
  | .operations _ _ ops => Operation.dumpAll dir ops
  | .invocations backend _ => throw (.dumpUnsupported backend)

end Plan

end Rollout

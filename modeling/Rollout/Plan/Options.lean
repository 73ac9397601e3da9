/-
Options that hold for every backend.
-/
import Rollout.Kubernetes.Workload

namespace Rollout.Plan

/-- The namespace when none is given. -/
def defaultNamespace : String := "default"

/-- The resource group of container instances when none is given. -/
def defaultResourceGroup : String := "topo"

structure Options where
  /-- Where artifacts go; printed when there is no directory. -/
  workingDir : Option String := none
  ns : String := defaultNamespace
  routerImage : String := Kubernetes.defaultRouterImage
  deriving DecidableEq, Repr, Inhabited

/-- Whether a plan sets an application up or takes it down. -/
inductive Mode where
  | create
  | delete
  deriving DecidableEq, Repr, Inhabited

def Mode.name : Mode → String
  | create => "create"
  | delete => "delete"

end Rollout.Plan

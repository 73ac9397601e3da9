/-
Showing the logs of the first service of an application.
-/
import Rollout.Plan.Basic

open Rollout.Host (CommandError)

namespace Rollout.Plan

/-- The service whose logs are shown. -/
def firstService (a : Spec.Application) : Except Error Spec.Service :=
  match a.services with
  | [] => .error (.noServices a.name)
  | s :: _ => .ok s

/-- A log command that ends with a code other than zero has failed. -/
def logsResult (program : String) : Option Int → Except Error Unit
  | some 0 => .ok ()
  | code => .error (.command (.failed program code ""))

/-- Shows logs until the backend ends it.  A log command of container instances does not stay
attached, so it is run again and again, and only a failure to run it ends that. -/
def attach (t : Target) (ns : String) (filters : List Pattern) (a : Spec.Application) :
    RunExcept Error Unit := do
  let first ← firstService a
  match t with
  | .docker =>
    let code ← orFail .command (Run.take (.stream (Docker.logsLine first.name)))
    logsResult "docker" code
  | .aci group =>
    let e ← ExceptT.lift (Run.take (.streamForever (Aci.logsLine group first.name) Aci.logsPause))
    throw (.command e)
  | .kubernetes c =>
    orFail .cluster (Run.take (.follow c ns (Kubernetes.appSelector first.name) filters))

end Rollout.Plan

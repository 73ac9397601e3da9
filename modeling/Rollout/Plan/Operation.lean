/-
Plans for a cluster: an ordered list of operations, each kept as an artifact before the cluster is
called.

* `createOperations` and `deleteOperations` list the operations of an application;
* `execute` carries operations out, `dump` only keeps them.
-/
import Rollout.Plan.Artifact
import Rollout.Plan.Options

namespace Rollout.Plan

open Kubernetes (Call Connection Kind Resource Target)

/-- One call to the cluster and the name of its artifact. -/
structure Operation where
  artifact : String
  call : Call
  deriving DecidableEq, Repr, Inhabited

/-- What an operation keeps as its artifact. -/
def Operation.document (op : Operation) : Json.Value :=
  match op.call with
  | .create _ r => r.toJson
  | .delete t => t.toJson

/-- A service that a cluster can run: one scale, and a port if it has shards. -/
def checkService (s : Spec.Service) : Except Error Unit := do
  (s.check).mapError .invalid
  if s.isSharded && s.ports.isEmpty then .error (.missingShardPort s.name)

def checkServices (services : List Spec.Service) : Except Error Unit :=
  services.forM checkService

/-- Creates a resource; the artifact is named by the service and a suffix. -/
def createOperation (s : Spec.Service) (ns suffix : String) (r : Resource) : Operation :=
  ⟨s!"{s.name}-{suffix}", .create ns r⟩

/-- The operations that set up the replicas of a service. -/
def createReplicas (o : Options) (isPublic : Bool) (s : Spec.Service) : List Operation :=
  let create := createOperation s o.ns
  [create "deploy" (.deployment (Kubernetes.deployment s o.ns)),
    create "load-balancer" (.service (Kubernetes.loadBalancedService s o.ns isPublic))]

/-- The operations that set up the shards of a service, reached at a port. -/
def createShards (o : Options) (isPublic : Bool) (s : Spec.Service) (port : UInt16) :
    List Operation :=
  let create := createOperation s o.ns
  [create "shards-service" (.service (Kubernetes.headlessService s o.ns)),
    create "stateful-set" (.statefulSet (Kubernetes.statefulSet s o.ns s.shards)),
    create "shard-router"
      (.deployment (Kubernetes.routerDeployment s o.ns o.routerImage s.shards port)),
    create "shard-router-service" (.service (Kubernetes.routerService s o.ns isPublic))]

/-- The operations that set up a service. -/
def createService (o : Options) (isPublic : Bool) (s : Spec.Service) :
    Except Error (List Operation) := do
  let replicas := if 0 < s.replicas then createReplicas o isPublic s else []
  if 0 < s.shards then
    match s.firstPort with
    | none => .error (.missingShardPort s.name)
    | some port => .ok (replicas ++ createShards o isPublic s port.number)
  else .ok replicas

/-- Removes a resource; the artifact is named by the service and a suffix. -/
def deleteOperation (s : Spec.Service) (ns suffix : String) (k : Kind) (name : String) :
    Operation :=
  ⟨s!"{s.name}-{suffix}-delete", .delete { kind := k, name := name, ns := ns }⟩

/-- The operations that take down a service. -/
def deleteService (ns : String) (s : Spec.Service) : List Operation :=
  let delete := deleteOperation s ns
  let router := Kubernetes.routerName s.name
  (if 0 < s.replicas then
    [delete "deploy" .deployment s.name, delete "load-balancer" .service s.name]
  else [])
  ++ if s.isSharded then
    [delete "shard-router" .deployment router, delete "stateful-set" .statefulSet s.name,
      delete "shard-router-service" .service router, delete "shards-service" .service s.name]
  else []

/-- The operations that set up an application. -/
def createOperations (o : Options) (a : Spec.Application) : Except Error (List Operation) := do
  checkServices a.services
  let perService ← a.services.mapM fun s => createService o (a.isPublic s) s
  .ok perService.flatten

/-- The operations that take down an application. -/
def deleteOperations (o : Options) (a : Spec.Application) : Except Error (List Operation) := do
  checkServices a.services
  .ok (a.services.flatMap (deleteService o.ns))

namespace Operation

/-- Keeps an operation as an artifact. -/
def persist (op : Operation) (a : Artifacts) : RunExcept Error Unit :=
  a.write op.artifact op.document

/-- Calls the cluster. -/
def apply (op : Operation) (c : Connection) : RunExcept Error Unit :=
  orFail .cluster (Run.take (.cluster c op.call))

/-- Keeps every operation and, unless it is a dry run, carries it out before the next one. -/
def executeAll (c : Connection) (a : Artifacts) (dryRun : Bool) :
    List Operation → RunExcept Error Unit
  | [] => pure ()
  | op :: rest => do
    op.persist a
    if !dryRun then op.apply c
    executeAll c a dryRun rest

/-- Keeps every operation in a directory, which is made if need be. -/
def dumpAll (dir : String) (ops : List Operation) : RunExcept Error Unit := do
  makeDirOrFail dir
  ops.forM (·.persist (.directory dir))

end Operation

end Rollout.Plan

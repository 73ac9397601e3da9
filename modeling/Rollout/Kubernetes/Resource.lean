/-
Cluster resources, as far as plans use them, and their JSON form.

A resource is a deployment, a stateful set or a service.  `Resource.toJson` writes it with the
fields in the order in which the cluster documents them; empty label sets, environments, mounts
and volumes are left out.
-/
import Rollout.Spec.Wire

namespace Rollout.Kubernetes

open Json (Value)
open Spec (EnvVar Mount Volume)

inductive Kind where
  | deployment
  | statefulSet
  | service
  deriving DecidableEq, Repr, Inhabited

namespace Kind

def name : Kind → String
  | deployment => "Deployment"
  | statefulSet => "StatefulSet"
  | service => "Service"

/-- The name of a kind in paths. -/
def plural : Kind → String
  | deployment => "deployments"
  | statefulSet => "statefulsets"
  | service => "services"

def apiVersion : Kind → String
  | deployment | statefulSet => "apps/v1"
  | service => "v1"

/-- Where the versions of a kind live under the server root. -/
def apiRoot : Kind → String
  | deployment | statefulSet => "/apis/apps/v1"
  | service => "/api/v1"

/-- The path of all resources of a kind in a namespace. -/
def collectionPath (k : Kind) (ns : String) : String :=
  s!"{k.apiRoot}/namespaces/{ns}/{k.plural}"

/-- The path of one resource. -/
def itemPath (k : Kind) (ns name : String) : String :=
  s!"{k.collectionPath ns}/{name}"

end Kind

/-- Labels, ordered by name. -/
abbrev Labels := List (String × String)

def Labels.toJson (ls : Labels) : Value :=
  .object (ls.map fun (k, v) => (k, .text v))

structure Metadata where
  name : Option String := none
  ns : Option String := none
  labels : Labels := []
  deriving DecidableEq, Repr, Inhabited

def Metadata.toJson (m : Metadata) : Value :=
  .object (Value.optionalField "name" (m.name.map .text)
    ++ Value.optionalField "namespace" (m.ns.map .text)
    ++ if m.labels.isEmpty then [] else [("labels", m.labels.toJson)])

structure PodContainer where
  name : String
  image : String
  env : List EnvVar := []
  mounts : List Mount := []
  deriving DecidableEq, Repr, Inhabited

def PodContainer.toJson (c : PodContainer) : Value :=
  .object ([("name", .text c.name), ("image", .text c.image)]
    ++ Value.listField "env" (c.env.map EnvVar.toJson)
    ++ Value.listField "volumeMounts" (c.mounts.map Mount.toJson))

/-- A volume as pods name it: a reference to a claim. -/
def podVolumeToJson (v : Volume) : Value :=
  .object [("name", .text v.name),
    ("persistentVolumeClaim", .object [("claimName", .text v.claim)])]

/-- What the pods of a workload look like. -/
structure PodTemplate where
  labels : Labels
  containers : List PodContainer
  volumes : List Volume := []
  deriving DecidableEq, Repr, Inhabited

def PodTemplate.toJson (t : PodTemplate) : Value :=
  .object [("metadata", Metadata.toJson { labels := t.labels }),
    ("spec", .object ([("containers", .list (t.containers.map PodContainer.toJson))]
      ++ Value.listField "volumes" (t.volumes.map podVolumeToJson)))]

structure Deployment where
  metadata : Metadata
  replicas : UInt32
  selector : Labels
  template : PodTemplate
  deriving DecidableEq, Repr, Inhabited

structure StatefulSet where
  metadata : Metadata
  replicas : UInt32
  serviceName : String
  selector : Labels
  template : PodTemplate
  deriving DecidableEq, Repr, Inhabited

/-- Who can reach a service: everybody, or the cluster alone. -/
inductive Exposure where
  | clusterIP
  | loadBalancer
  deriving DecidableEq, Repr, Inhabited

def Exposure.name : Exposure → String
  | clusterIP => "ClusterIP"
  | loadBalancer => "LoadBalancer"

def Exposure.ofPublic (isPublic : Bool) : Exposure :=
  if isPublic then loadBalancer else clusterIP

structure Service where
  metadata : Metadata
  exposure : Exposure
  /-- A headless service has no address of its own. -/
  headless : Bool := false
  selector : Labels
  ports : List UInt16
  deriving DecidableEq, Repr, Inhabited

def servicePortToJson (number : UInt16) : Value :=
  .object [("name", .text s!"tcp-{number}"), ("port", .int number.toNat),
    ("protocol", .text "TCP")]

inductive Resource where
  | deployment (d : Deployment)
  | statefulSet (s : StatefulSet)
  | service (s : Service)
  deriving DecidableEq, Repr, Inhabited

namespace Resource

def kind : Resource → Kind
  | deployment _ => .deployment
  | statefulSet _ => .statefulSet
  | service _ => .service

def metadata : Resource → Metadata
  | deployment d => d.metadata
  | statefulSet s => s.metadata
  | service s => s.metadata

/-- The name of a resource, empty when it has none. -/
def name (r : Resource) : String :=
  r.metadata.name.getD ""

/-- The part of a resource that its kind decides. -/
def specToJson : Resource → Value
  | deployment d =>
    .object [("replicas", .int d.replicas.toNat),
      ("selector", .object [("matchLabels", d.selector.toJson)]),
      ("template", d.template.toJson)]
  | statefulSet s =>
    .object [("replicas", .int s.replicas.toNat), ("serviceName", .text s.serviceName),
      ("selector", .object [("matchLabels", s.selector.toJson)]),
      ("template", s.template.toJson)]
  | service s =>
    .object ([("type", .text s.exposure.name)]
      ++ (if s.headless then [("clusterIP", .text "None")] else [])
      ++ [("selector", s.selector.toJson), ("ports", .list (s.ports.map servicePortToJson))])

def toJson (r : Resource) : Value :=
  .object [("apiVersion", .text r.kind.apiVersion), ("kind", .text r.kind.name),
    ("metadata", r.metadata.toJson), ("spec", r.specToJson)]

end Resource

/-- How the dependents of a removed resource are removed. -/
inductive Propagation where
  | foreground
  | background
  | orphan
  deriving DecidableEq, Repr, Inhabited

def Propagation.name : Propagation → String
  | foreground => "Foreground"
  | background => "Background"
  | orphan => "Orphan"

/-- A resource to be removed. -/
structure Target where
  kind : Kind
  name : String
  ns : String
  propagation : Propagation := .foreground
  deriving DecidableEq, Repr, Inhabited

def Target.toJson (t : Target) : Value :=
  .object [("apiVersion", .text t.kind.apiVersion), ("kind", .text t.kind.name),
    ("name", .text t.name), ("namespace", .text t.ns),
    ("propagationPolicy", .text t.propagation.name)]

end Rollout.Kubernetes

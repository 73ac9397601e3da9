/-
The resources that stand for a service.

A replicated service is a deployment behind a service.  A sharded one is a stateful set with a
headless service, and a router deployment with a service in front.  Every resource carries one
label, `app`, with the name of the workload it belongs to; the router is a workload of its own.
-/
import Rollout.Kubernetes.Resource

namespace Rollout.Kubernetes

/-- The label that ties pods to their workloads and services. -/
def appLabel : String := "app"

/-- The image of the router in front of shards. -/
def defaultRouterImage : String := "brendanburns/sharder"

/-- The name of the router of a service. -/
def routerName (service : String) : String :=
  service ++ "-sharder"

def appLabels (name : String) : Labels :=
  [(appLabel, name)]

/-- What selects the pods of a workload. -/
def appSelector (name : String) : String :=
  appLabel ++ "=" ++ name

def workloadMetadata (name ns : String) : Metadata :=
  { name := some name, ns := some ns, labels := appLabels name }

/-- The containers of the pods, named by the service and their position. -/
def podContainers (s : Spec.Service) : List PodContainer :=
  s.containers.zipIdx.map fun (c, i) =>
    { name := s!"{s.name}-{i}", image := c.image, env := c.env, mounts := c.mounts }

def podTemplate (s : Spec.Service) : PodTemplate :=
  { labels := appLabels s.name, containers := podContainers s, volumes := s.volumes }

/-- The declared ports; all of them are served over TCP. -/
def servicePorts (s : Spec.Service) : List UInt16 :=
  s.ports.map (·.number)

def deployment (s : Spec.Service) (ns : String) : Deployment :=
  { metadata := workloadMetadata s.name ns, replicas := s.replicas,
    selector := appLabels s.name, template := podTemplate s }

def loadBalancedService (s : Spec.Service) (ns : String) (isPublic : Bool) : Service :=
  { metadata := workloadMetadata s.name ns, exposure := .ofPublic isPublic,
    selector := appLabels s.name, ports := servicePorts s }

/-- The service that gives every shard a name. -/
def headlessService (s : Spec.Service) (ns : String) : Service :=
  { metadata := workloadMetadata s.name ns, exposure := .clusterIP, headless := true,
    selector := appLabels s.name, ports := servicePorts s }

def statefulSet (s : Spec.Service) (ns : String) (shards : UInt32) : StatefulSet :=
  { metadata := workloadMetadata s.name ns, replicas := shards, serviceName := s.name,
    selector := appLabels s.name, template := podTemplate s }

/-- The address of one shard. -/
def shardAddress (name : String) (port : UInt16) (shard : Nat) : String :=
  s!"http://{name}-{shard}.{name}:{port}"

/-- The addresses of all shards in order, between commas. -/
def shardAddresses (name : String) (shards : UInt32) (port : UInt16) : String :=
  ",".intercalate ((List.range shards.toNat).map (shardAddress name port))

/-- What the router is told: the shards, its own address, and the pattern if there is one. -/
def routerEnv (s : Spec.Service) (shards : UInt32) (port : UInt16) : List Spec.EnvVar :=
  let pattern := (s.sharding.bind (·.urlPattern)).filter (!·.isEmpty)
  [⟨"SHARD_ADDRESSES", shardAddresses s.name shards port⟩,
    ⟨"SERVER_ADDRESS", s!"0.0.0.0:{port}"⟩]
    ++ pattern.toList.map (⟨"PATH_REGEXP", ·⟩)

def routerDeployment (s : Spec.Service) (ns image : String) (shards : UInt32) (port : UInt16) :
    Deployment :=
  let name := routerName s.name
  let router := { name := "sharder", image := image, env := routerEnv s shards port }
  { metadata := workloadMetadata name ns, replicas := shards, selector := appLabels name,
    template := { labels := appLabels name, containers := [router] } }

/-- The way in to a shard set: the router, not the shards. -/
def routerService (s : Spec.Service) (ns : String) (isPublic : Bool) : Service :=
  let name := routerName s.name
  { metadata := workloadMetadata name ns, exposure := .ofPublic isPublic,
    selector := appLabels name, ports := servicePorts s }

end Rollout.Kubernetes

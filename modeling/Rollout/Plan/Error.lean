/-
Why a specification cannot be planned, or a plan not carried out.
-/
import Rollout.Kubernetes.Error
import Rollout.Spec.Validation
import Rollout.Host.Command

namespace Rollout.Plan

/-- Where applications run. -/
inductive Backend where
  | kubernetes
  | aci
  | docker
  deriving DecidableEq, Repr, Inhabited

def Backend.name : Backend → String
  | kubernetes => "kubernetes"
  | aci => "aci"
  | docker => "docker"

/-- What a command-line backend cannot express. -/
inductive Feature where
  | replicationOrSharding
  | multipleContainers
  | multiplePorts
  deriving DecidableEq, Repr, Inhabited

def Feature.name : Feature → String
  | replicationOrSharding => "replication or sharding"
  | multipleContainers => "multiple containers"
  | multiplePorts => "multiple ports"

inductive Error where
  | invalid (v : Spec.Violation)
  | unsupported (backend : Backend) (service : String) (feature : Feature)
  | dumpUnsupported (backend : Backend)
  | missingShardPort (service : String)
  | noContainers (service : String)
  | noServices (application : String)
  | write (path : String) (source : Host.Error)
  | sink (source : Host.Error)
  | cluster (e : Kubernetes.ClusterError)
  | command (e : Host.CommandError)
  deriving DecidableEq, Repr, Inhabited

namespace Error

def message : Error → String
  | invalid v => v.message
  | unsupported backend service feature =>
    s!"{service}: {backend.name} backend does not support {feature.name}"
  | dumpUnsupported backend => s!"{backend.name} plans cannot be dumped"
  | missingShardPort service => s!"{service}: sharded services must declare at least one port"
  | noContainers service => s!"{service}: service declares no containers"
  | noServices application => s!"application '{application}' has no services"
  | write path source => s!"failed to write {path}: {source.message}"
  | sink source => s!"log output failed: {source.message}"
  | cluster e => e.message
  | command e => e.message

/-- The service that an error belongs to. -/
def service? : Error → Option String
  | invalid v => v.service?
  | unsupported _ service _ | missingShardPort service | noContainers service => some service
  | _ => none

/-- The message and the messages of what caused it. -/
def chain (e : Error) : List String :=
  match e with
  | write _ source | sink source => [e.message, source.message]
  | command c => c.chain
  | e => [e.message]

end Error

end Rollout.Plan

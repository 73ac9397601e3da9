/-
What plans ask of a cluster, and the settings for reaching one.
-/
import Rollout.Kubernetes.Resource
import Rollout.Text.Utf8

namespace Rollout.Kubernetes

/-- How to reach a cluster and who to be there. -/
structure Connection where
  server : String := ""
  /-- The namespace that the context names. -/
  ns : Option String := none
  certificateAuthority : Option Bytes := none
  insecure : Bool := false
  token : Option String := none
  clientCertificate : Option Bytes := none
  clientKey : Option Bytes := none
  deriving DecidableEq, Repr, Inhabited

/-- A change to a cluster. -/
inductive Call where
  | create (ns : String) (resource : Resource)
  | delete (target : Target)
  deriving DecidableEq, Repr, Inhabited

/-- The path that a call goes to. -/
def Call.path : Call → String
  | create ns r => r.kind.collectionPath ns
  | delete t => t.kind.itemPath t.ns t.name

end Rollout.Kubernetes

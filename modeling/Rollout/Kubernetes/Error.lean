/-
Failures of the cluster.
-/

namespace Rollout.Kubernetes

inductive ClusterError where
  /-- The server answered with a failure. -/
  | api (status : Nat) (reason message : String)
  /-- The request or its answer did not get through, or the answer made no sense. -/
  | network (detail : String)
  /-- The settings for the connection are no good. -/
  | config (text : String)
  deriving DecidableEq, Repr, Inhabited

def ClusterError.message : ClusterError → String
  | api status reason message => s!"cluster API returned {status} ({reason}): {message}"
  | network detail => s!"cluster request failed: {detail}"
  | config text => text

end Rollout.Kubernetes

/-
How a run can fail, and how that is told.

`Error.report` gives what is printed: the messages of the failure and of what caused it in one
line, and after that, for some failures, a hint.
-/
import Rollout.Plan.Error
import Rollout.Registry.Call
import Rollout.Spec.Load
import Rollout.Text.Style

namespace Rollout.Pipeline

inductive Error where
  | badFilter (pattern : String)
  | load (path : String) (e : Spec.LoadError)
  | invalid (violations : List Spec.Violation)
  | registry (e : Registry.ClientError)
  | notRegistered (name : String)
  | noRegistry
  | noKubeconfig
  /-- The settings for the cluster are no good. -/
  | connection (e : Kubernetes.ClusterError)
  | plan (e : Plan.Error)

namespace Error

/-- The message and the messages of what caused it. -/
def chain : Error → List String
  | badFilter pattern => [s!"Invalid --log-filter '{pattern}'", "the pattern cannot be read"]
  | load path e => s!"Failed to load {path}" :: e.chain
  | invalid violations => [Spec.Violation.report violations]
  | registry e => [e.message]
  | notRegistered name => [s!"Specification not found in registry: {name}"]
  | noRegistry => ["No registry configured"]
  | noKubeconfig => ["Could not locate a kubeconfig"]
  | connection e => [e.message]
  | plan e => e.chain

/-- The message alone. -/
def message (e : Error) : String := e.chain.headD ""

/-- The status of a response that rejects what was sent. -/
def rejected : Nat := 400

/-- What to do about a failure, where that is known. -/
def hint? : Error → Option String
  | noRegistry => some "Pass --registry-url or set TOPO_REGISTRY_URL."
  | noKubeconfig => some "Pass --kubeconfig or set KUBECONFIG."
  | registry (.network _) => some "Check that the registry is running and reachable."
  | notRegistered _ => some "Register it first with --file, or run with --list."
  | registry (.api status ..) =>
    if status = rejected then
      some "The registry rejected the specification; fix it and retry."
    else none
  | plan (.unsupported ..) =>
    some "Use --executor kubernetes for replicated, sharded or multi-port services."
  | plan (.cluster _) => some "Check your kubeconfig context and cluster connectivity."
  | plan (.command (.spawn program _)) =>
    some s!"Make sure \x60{program}\x60 is installed and on PATH."
  | _ => none

/-- What is printed. -/
def report (color : Bool) (e : Error) : String :=
  Text.Style.boldRed.paint color "Error:" ++ " " ++ ": ".intercalate e.chain ++ "\n"
    ++ match e.hint? with
      | some hint => "\n" ++ Text.Style.yellow.paint color ("Hint: " ++ hint) ++ "\n"
      | none => ""

end Error

end Rollout.Pipeline

/-
The actions through which the program touches its surroundings, and their answers.

Everything else is computed, so what a run does to the outside is the list of its actions.
-/
import Rollout.Kubernetes.Call
import Rollout.Kubernetes.Error
import Rollout.Registry.Call
import Rollout.Host.Command
import Rollout.Host.Program
import Rollout.Pattern.Basic

open Rollout.Host (CommandLine CommandOutput CommandError)

namespace Rollout

inductive Action where
  | loadFile (path : String)
  | storeFile (path : String) (content : Bytes)
  /-- Makes a directory and those above it. -/
  | makeDirs (path : String)
  /-- Writes to the standard output. -/
  | print (content : Bytes)
  /-- Writes to the standard error output. -/
  | tell (text : String)
  /-- Runs a command and captures what it writes. -/
  | command (argv : CommandLine)
  /-- Runs a command and passes on what it writes; the answer is its code. -/
  | stream (argv : CommandLine)
  /-- Runs a command so over and over, with a pause in milliseconds, until it cannot be run. -/
  | streamForever (argv : CommandLine) (pause : Nat)
  /-- Changes a cluster. -/
  | cluster (connection : Kubernetes.Connection) (call : Kubernetes.Call)
  /-- Follows the logs of the pods with a label, through filters, until that fails. -/
  | follow (connection : Kubernetes.Connection) (ns selector : String) (filters : List Pattern)
  | registry (base : String) (call : Registry.Call)

/-- What an action is answered. -/
abbrev Action.Answer : Action → Type
  | loadFile _ => Except Host.Error Bytes
  | storeFile .. | makeDirs _ | print _ => Except Host.Error Unit
  | tell _ => Unit
  | command _ => Except CommandError CommandOutput
  | stream _ => Except CommandError (Option Int)
  | streamForever .. => CommandError
  | cluster .. => Except Kubernetes.ClusterError Unit
  | follow .. => Except Kubernetes.ClusterError Unit
  | registry _ call => Except Registry.ClientError call.Result

/-- A program that takes actions. -/
abbrev Run (α : Type) := Host.Program Action Action.Answer α

/-- One action. -/
def Run.take (x : Action) : Run x.Answer := Host.Program.take x

/-- A program that may fail. -/
abbrev RunExcept (ε α : Type) := ExceptT ε (Host.Program Action Action.Answer) α

end Rollout

/-
What a run is to do.
-/
import Rollout.Pattern.Basic
import Rollout.Plan.Error
import Rollout.Plan.Options

namespace Rollout.Pipeline

/-- Where the specification comes from. -/
inductive Source where
  | file (path : String)
  | registry (name : String)
  /-- There is none: the registry's specifications are listed. -/
  | list
  deriving DecidableEq, Repr, Inhabited

structure Settings where
  source : Source
  executor : Plan.Backend := .kubernetes
  /-- Changes nothing. -/
  dryRun : Bool := false
  /-- Takes the application down instead of setting it up. -/
  delete : Bool := false
  /-- Carries the plan out, or writes it down. -/
  deploy : Bool := true
  /-- Shows logs afterwards. -/
  attach : Bool := false
  registryUrl : Option String := none
  kubeconfig : Option String := none
  /-- The namespace, in the place of the one that the context names. -/
  ns : Option String := none
  resourceGroup : String := Plan.defaultResourceGroup
  workingDir : Option String := none
  /-- Where the plan is written down instead of carried out. -/
  dump : Option String := none
  logFilters : List Pattern := []
  /-- Output is coloured. -/
  color : Bool := false

/-- Whether the plan sets up or takes down. -/
def Settings.mode (s : Settings) : Plan.Mode := if s.delete then .delete else .create

end Rollout.Pipeline

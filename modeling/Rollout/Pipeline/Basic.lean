/-
The whole run: load a specification, register it, plan it, carry the plan out, and show logs.

* `obtain` gets the specification from a file or from the registry, and it breaks no rule;
* `deploy` plans it and carries the plan out, or writes it down;
* `run` does everything that the settings ask for.

Design notes: everything that touches the surroundings is an action of the program, so what a run
does not do can be read off it whatever it is answered.
-/
import Rollout.Kubernetes.Client
import Rollout.Pipeline.Error
import Rollout.Pipeline.Settings
import Rollout.Plan.Attach
import Rollout.Spec.Load

namespace Rollout.Pipeline

open Spec (Application)

/-- A program that fails in the run's own way. -/
abbrev Step (α : Type) := RunExcept Error α

/-- A program whose failures are given a place among those of a run. -/
def failingAs (e : ε → Error) (p : RunExcept ε α) : Step α :=
  ExceptT.mk do return (← p.run).mapError e

/-- One call to the registry. -/
def ask (base : String) (call : Registry.Call) : Step call.Result :=
  failingAs .registry (ExceptT.mk (Run.take (.registry base call)))

/-- Prints a line to the standard output; nobody asks whether it got there. -/
def printLine (line : String) : Step Unit := do
  let _ ← ExceptT.lift (Run.take (.print (Utf8.encode (line ++ "\n"))))

/-- Tells of a success. -/
def tellSuccess (color : Bool) (text : String) : Step Unit :=
  ExceptT.lift (Run.take (.tell
    (Text.Style.boldGreen.paint color "Success:" ++ " " ++ text ++ "\n")))

/-! ### The specification -/

/-- The registry's URL, without which some things cannot be done. -/
def requireRegistry (s : Settings) : Step String :=
  match s.registryUrl with
  | some base => pure base
  | none => throw .noRegistry

/-- A specification that breaks no rule. -/
def requireValid (a : Application) : Step Unit :=
  match a.validate with
  | .ok () => pure ()
  | .error vs => throw (.invalid vs)

/-- Stores a specification in the registry, unless the same is there already. -/
def register (base : String) (a : Application) : Step Unit := do
  let existing ← ask base (.get a.name)
  if existing = some a then pure ()
  else
    let _ ← ask base (.put a)

/-- Registers a specification when there is a registry and it is not taken down. -/
def registerIfAsked (s : Settings) (a : Application) : Step Unit :=
  match s.registryUrl with
  | some base => if s.delete then pure () else register base a
  | none => pure ()

/-- Gets the specification from a file. -/
def obtainFile (s : Settings) (path : String) : Step Application := do
  let a ← failingAs (.load path) (Application.load path)
  requireValid a
  registerIfAsked s a
  pure a

/-- Gets the specification from the registry. -/
def obtainRegistered (s : Settings) (name : String) : Step Application := do
  let base ← requireRegistry s
  match ← ask base (.get name) with
  | none => throw (.notRegistered name)
  | some a => do
    requireValid a
    pure a

/-- A specification in a listing: its name and its services. -/
def listingLine (color : Bool) (a : Application) : String :=
  Text.Style.bold.paint color a.name ++ "\t" ++ ",".intercalate (a.services.map (·.name))

/-- Lists what the registry has. -/
def listAll (s : Settings) : Step Unit := do
  let base ← requireRegistry s
  let all ← ask base .list
  if all.isEmpty then printLine "No specifications registered."
  else all.forM fun a => printLine (listingLine s.color a)

/-! ### The target -/

/-- The cluster that the kubeconfig leads to. -/
def findCluster (s : Settings) : Step Kubernetes.Connection :=
  match s.kubeconfig with
  | none => throw .noKubeconfig
  | some path => do
    let c ← failingAs .connection (Kubernetes.Connection.load path)
    match c.check with
    | .ok () => pure c
    | .error e => throw (.connection e)

/-- Where the application is to run, and in which namespace. -/
def findTarget (s : Settings) : Step (Target × String) :=
  match s.executor with
  | .kubernetes => do
    let c ← findCluster s
    pure (.kubernetes c, (s.ns.or c.ns).getD Plan.defaultNamespace)
  | .aci => pure (.aci s.resourceGroup, s.ns.getD Plan.defaultNamespace)
  | .docker => pure (.docker, s.ns.getD Plan.defaultNamespace)

/-! ### The plan -/

/-- The plan that the settings ask for. -/
def planFor (s : Settings) (t : Target) (ns : String) (a : Application) : Except Plan.Error Plan :=
  Plan.compile t { workingDir := s.workingDir, ns } s.mode a

/-- What was done, for the one who asked for it. -/
def doneText (s : Settings) (a : Application) : String :=
  (if s.delete then "Deleted " else "Deployed ") ++ a.name

/-- Carries a plan out, or writes it down. -/
def carryOut (s : Settings) (p : Plan) (a : Application) : Step Unit :=
  match s.dump with
  | some dir => do
    failingAs .plan (p.dump dir)
    tellSuccess s.color ("Wrote plan to " ++ dir)
  | none => do
    failingAs .plan (p.execute s.dryRun)
    if s.dryRun then pure () else tellSuccess s.color (doneText s a)

/-- Takes a specification out of the registry that it came from, once its application is gone. -/
def unregister (s : Settings) : Step Unit :=
  if s.delete && !s.dryRun && s.dump.isNone then
    match s.registryUrl, s.source with
    | some base, .registry name => ask base (.delete name)
    | _, _ => pure ()
  else pure ()

/-- Plans the application and carries the plan out. -/
def deploy (s : Settings) (t : Target) (ns : String) (a : Application) : Step Unit :=
  match planFor s t ns a with
  | .error e => throw (.plan e)
  | .ok p => do
    carryOut s p a
    unregister s

/-! ### The run -/

/-- What is done once the specification is there. -/
def proceed (s : Settings) (a : Application) : Step Unit := do
  let (t, ns) ← findTarget s
  if s.deploy then deploy s t ns a
  if s.attach then failingAs .plan (Plan.attach t ns s.logFilters a)

/-- Does everything that the settings ask for. -/
def run (s : Settings) : Step Unit :=
  match s.source with
  | .list => listAll s
  | .file path => do proceed s (← obtainFile s path)
  | .registry name => do proceed s (← obtainRegistered s name)

/-- A run that tells of its failure; gives the code to end with. -/
def runAndReport (color : Bool) (settings : Except Error Settings) : Run Nat := do
  let result ← match settings with
    | .ok s => (run s).run
    | .error e => pure (.error e)
  match result with
  | .ok () => pure 0
  | .error e => do
    Run.take (.tell (e.report color))
    pure 1

end Rollout.Pipeline

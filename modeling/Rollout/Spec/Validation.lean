/-
What is wrong with a specification.

`violations` lists every violation at once, in the order of the declaration; `check` is the part
of it that no backend can do without.
-/
import Rollout.Spec.Basic
import Rollout.Text.Blank

namespace Rollout.Spec

/-- One way in which a specification makes no sense. -/
inductive Violation where
  | emptyName
  | unnamedService (index : Nat)
  | duplicateService (name : String)
  | unknownServeTarget (name : String)
  | missingImage (service : String) (index : Nat)
  | replicasAndShards (service : String)
  deriving DecidableEq, Repr, Inhabited

namespace Violation

def message : Violation → String
  | emptyName => "application name cannot be empty"
  | unnamedService index => s!"service #{index} has no name"
  | duplicateService name => s!"duplicate service name: {name}"
  | unknownServeTarget name => s!"serve target '{name}' does not match any service"
  | missingImage service index => s!"{service}: container #{index} has no image"
  | replicasAndShards service => s!"{service}: replicas and shards are mutually exclusive"

/-- The service that a violation belongs to. -/
def service? : Violation → Option String
  | duplicateService name | replicasAndShards name | missingImage name _ => some name
  | emptyName | unnamedService _ | unknownServeTarget _ => none

/-- The report on several violations: their number, then one a line. -/
def report (vs : List Violation) : String :=
  s!"specification is invalid ({vs.length} error(s))"
    ++ String.join (vs.map fun v => s!"\n  - {v.message}")

end Violation

namespace Service

/-- A service is a replica set or a shard set, never both. -/
def check (s : Service) : Except Violation Unit :=
  if s.hasConflictingScale then .error (.replicasAndShards s.name) else .ok ()

/-- The containers without an image. -/
def imageViolations (s : Service) : List Violation :=
  s.containers.zipIdx.filterMap fun (c, i) =>
    if Text.isBlankText c.image then some (.missingImage s.name i) else none

/-- The violations of one service, given the names before it. -/
def violations (s : Service) (index : Nat) (seen : List String) : List Violation :=
  if s.name.isEmpty then [.unnamedService index]
  else
    (if s.name ∈ seen then [.duplicateService s.name] else [])
      ++ s.imageViolations
      ++ (match s.check with
        | .ok () => []
        | .error v => [v])

end Service

/-- The violations of services, given the position of the first and the names before it. -/
def serviceViolations (index : Nat) (seen : List String) : List Service → List Violation
  | [] => []
  | s :: rest => s.violations index seen ++ serviceViolations (index + 1) (seen ++ [s.name]) rest

namespace Application

/-- The names that services go by; an empty name is none. -/
def serviceNames (a : Application) : List String :=
  (a.services.map (·.name)).filter (!·.isEmpty)

/-- All violations, in the order of the declaration. -/
def violations (a : Application) : List Violation :=
  (if Text.isBlankText a.name then [.emptyName] else [])
    ++ serviceViolations 0 [] a.services
    ++ (match a.serve with
      | none => []
      | some serve =>
        if serve.name ∈ a.serviceNames then [] else [.unknownServeTarget serve.name])

/-- The specification, or what is wrong with it. -/
def validate (a : Application) : Except (List Violation) Unit :=
  match a.violations with
  | [] => .ok ()
  | vs => .error vs

end Application

end Rollout.Spec

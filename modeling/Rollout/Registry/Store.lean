/-
What a registry holds: specifications under their names, in the order of the names.
-/
import Rollout.Spec.Basic

namespace Rollout.Registry

open Spec (Application)

/-- The specifications of a registry; their names increase. -/
structure Store where
  specs : List Application := []
  deriving DecidableEq, Repr, Inhabited

namespace Store

/-- The specification of a name. -/
def get? (s : Store) (name : String) : Option Application :=
  s.specs.find? (·.name == name)

def contains (s : Store) (name : String) : Bool :=
  s.specs.any (·.name == name)

/-- Puts a specification where its name belongs, in the place of one of the same name. -/
def insertInto (a : Application) : List Application → List Application
  | [] => [a]
  | b :: rest =>
    if a.name < b.name then a :: b :: rest
    else if a.name == b.name then a :: rest
    else b :: insertInto a rest

/-- Stores a specification under its name. -/
def insert (s : Store) (a : Application) : Store := ⟨insertInto a s.specs⟩

/-- Removes the specification of a name. -/
def erase (s : Store) (name : String) : Store := ⟨s.specs.filter (·.name != name)⟩

end Store

end Rollout.Registry

/-
What clients ask of a specification registry, and how that can go wrong.
-/
import Rollout.Spec.Basic

namespace Rollout.Registry

open Spec (Application)

inductive Call where
  | get (name : String)
  | put (spec : Application)
  | delete (name : String)
  | list
  deriving DecidableEq, Repr, Inhabited

/-- What a call gives. -/
abbrev Call.Result : Call → Type
  | get _ => Option Application
  | put _ => Application
  | delete _ => Unit
  | list => List Application

inductive ClientError where
  /-- The registry answered with a failure. -/
  | api (status : Nat) (code message : String)
  /-- The request or its answer did not get through, or the answer made no sense. -/
  | network (detail : String)
  deriving DecidableEq, Repr, Inhabited

def ClientError.message : ClientError → String
  | api _ _ message => s!"Registry error: {message}"
  | network detail => s!"Network error: {detail}"

end Rollout.Registry

/-
Specifications from files.

A file whose name ends in `.yaml` or `.yml` is read as YAML, every other file as JSON.
-/
import Rollout.Action
import Rollout.Host.Path
import Rollout.Spec.Wire

namespace Rollout.Spec

inductive LoadError where
  | read (path : String) (source : Host.Error)
  | json (f : Json.Fault)
  | yaml (e : Yaml.Error)

namespace LoadError

def message : LoadError → String
  | read path source => s!"failed to read {path}: {source.message}"
  | json f => s!"invalid JSON specification: {f.message}"
  | yaml e => s!"invalid YAML specification: {e.message}"

/-- The message and the messages of what caused it. -/
def chain (e : LoadError) : List String :=
  [e.message, match e with
    | read _ source => source.message
    | json f => f.message
    | yaml e => e.message]

end LoadError

/-- A file of this name is read as YAML. -/
def isYamlPath (path : String) : Bool :=
  match Host.Path.extension? path with
  | some "yaml" | some "yml" => true
  | _ => false

/-- Reads a specification from the content of a file. -/
def Application.ofContent (path : String) (content : Bytes) : Except LoadError Application :=
  match Utf8.decode? content with
  | none => .error (.read path .notText)
  | some text =>
    if isYamlPath path then (ofYamlText text).mapError .yaml
    else (ofJsonText text).mapError .json

/-- Reads a specification from a file. -/
def Application.load (path : String) : RunExcept LoadError Application := ExceptT.mk do
  return match ← Run.take (.loadFile path) with
    | .ok content => ofContent path content
    | .error e => .error (.read path e)

end Rollout.Spec

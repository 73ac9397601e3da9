/-
Artifacts: rendered resources, kept in a directory or printed one after another.
-/
import Rollout.Action
import Rollout.Plan.Error
import Rollout.Host.Path

namespace Rollout.Plan

/-- Where artifacts go. -/
inductive Artifacts where
  /-- One file an artifact. -/
  | directory (path : String)
  | stdout
  deriving DecidableEq, Repr, Inhabited

/-- The directory when there is one, else the standard output. -/
def Artifacts.of : Option String → Artifacts
  | some dir => directory dir
  | none => stdout

/-- A rendered artifact: the document with one item a line, and a line end. -/
def render (v : Json.Value) : Bytes :=
  Utf8.encode (v.pretty ++ "\n")

/-- The file of an artifact. -/
def artifactPath (dir artifact : String) : String :=
  Host.Path.join dir (artifact ++ ".json")

/-- Turns the failure of an action into an error of the plan. -/
def orFail (e : ε → Error) (p : Run (Except ε α)) : RunExcept Error α :=
  ExceptT.mk do return (← p).mapError e

/-- Prints bytes to the standard output. -/
def printOrFail (content : Bytes) : RunExcept Error Unit :=
  orFail (.write "<stdout>") (Run.take (.print content))

/-- Keeps a document as an artifact. -/
def Artifacts.write (a : Artifacts) (artifact : String) (v : Json.Value) : RunExcept Error Unit :=
  match a with
  | directory dir =>
    let path := artifactPath dir artifact
    orFail (.write path) (Run.take (.storeFile path (render v)))
  | stdout => printOrFail (render v)

/-- Makes the directory for a dump. -/
def makeDirOrFail (dir : String) : RunExcept Error Unit :=
  orFail (.write dir) (Run.take (.makeDirs dir))

end Rollout.Plan

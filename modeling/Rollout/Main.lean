/-
The program on the command line.

It reads and writes files and the standard streams.  It has no connection to any server, and of all
programs it can run shell scripts alone, so what needs the others fails as it would without them.
-/
import Rollout.CommandLine.Settings
import Rollout.Pipeline.Basic
import Rollout.Registry.Client
import Rollout.Shell.Process

namespace Rollout.Main

/-- A failure of the operating system as a failure of an action. -/
def hostError (e : IO.Error) : Host.Error :=
  match e with
  | .noFileOrDirectory .. => .notFound
  | .permissionDenied .. => .accessDenied
  | .alreadyExists .. => .alreadyThere
  | e => .other (toString e)

/-- The result of an effect that may fail. -/
def attempt (effect : IO α) : IO (Except Host.Error α) := do
  match ← effect.toBaseIO with
  | .ok a => return .ok a
  | .error e => return .error (hostError e)

def ofBytes (bs : Bytes) : ByteArray := ⟨bs.toArray⟩

/-- There is no connection. -/
def unreachable : Http.Transport :=
  fun r => .error s!"no connection to {r.origin}"

/-- Writes bytes to the standard output. -/
def showBytes (bs : Bytes) : IO Unit := do
  let out ← IO.getStdout
  out.write (ofBytes bs)
  out.flush

/-- Runs a command and passes on what it writes. -/
def passOn (env : List (String × String)) (argv : Host.CommandLine) :
    IO (Except Host.CommandError (Option Int)) := do
  match Shell.spawn env argv with
  | .error e => return .error e
  | .ok o =>
    match ← attempt (do showBytes o.stdout; (← IO.getStderr).write (ofBytes o.stderr)) with
    | .ok () => return .ok o.code
    | .error e => return .error (.io e)

/-- Runs a command over and over until that fails. -/
partial def passOnForever (env : List (String × String)) (argv : Host.CommandLine)
    (pause : Nat) : IO Host.CommandError := do
  match ← passOn env argv with
  | .error e => return e
  | .ok _ =>
    IO.sleep (UInt32.ofNat pause)
    passOnForever env argv pause

/-- Takes an action. -/
def answer (env : List (String × String)) : (x : Action) → IO x.Answer
  | .loadFile path => attempt do return (← IO.FS.readBinFile path).toList
  | .storeFile path content => attempt (IO.FS.writeBinFile path (ofBytes content))
  | .makeDirs path => attempt (IO.FS.createDirAll path)
  | .print content => attempt (showBytes content)
  | .tell text => IO.eprint text
  | .command argv => return Shell.spawn env argv
  | .stream argv => passOn env argv
  | .streamForever argv pause => passOnForever env argv pause
  | .cluster c call => return call.over unreachable c
  | .follow c ns selector _ =>
    return (Kubernetes.podsOver unreachable c ns selector).map fun _ => ()
  | .registry base call => return call.over unreachable base

/-- The variables of the environment that options and their defaults come from; commands are given
the same. -/
def environment : IO (List (String × String)) := do
  let names := "HOME" :: CommandLine.Switch.all.filterMap (·.environmentName?)
  return (← names.mapM fun name => return (← IO.getEnv name).map (name, ·)).filterMap id

end Rollout.Main

open Rollout in
def main (args : List String) : IO UInt32 := do
  let env ← Main.environment
  let lookup := fun (name : String) => env.lookup name
  match CommandLine.Arguments.ofList lookup args with
  | .error e =>
    if e.exitCode = 0 then IO.println e.message else IO.eprintln ("error: " ++ e.message)
    return UInt32.ofNat e.exitCode
  | .ok a =>
    let code ← (Pipeline.runAndReport false (a.settings lookup false)).perform (Main.answer env)
    return UInt32.ofNat code

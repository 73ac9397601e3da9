/-
Commands: what running one gives, and how it can go wrong.
-/
import Rollout.Host.Error
import Rollout.Text.Blank
import Rollout.Text.Utf8

namespace Rollout.Host

/-- The program and its arguments. -/
abbrev CommandLine := List String

/-- A finished command; there is no code when a signal ended it. -/
structure CommandOutput where
  code : Option Int := none
  stdout : Bytes := []
  stderr : Bytes := []
  deriving DecidableEq, Repr, Inhabited

/-- A command succeeds with the code zero alone. -/
def CommandOutput.success (o : CommandOutput) : Bool :=
  o.code == some 0

inductive CommandError where
  | empty
  | spawn (program : String) (source : Error)
  | failed (program : String) (code : Option Int) (stderr : String)
  | io (source : Error)
  deriving DecidableEq, Repr, Inhabited

namespace CommandError

def describeCode : Option Int → String
  | some code => s!"status {code}"
  | none => "a signal"

def message : CommandError → String
  | empty => "empty command line"
  | spawn program source => s!"failed to start {program}: {source.message}"
  | failed program code stderr => s!"{program} exited with {describeCode code}: {stderr}"
  | io source => s!"i/o error while running command: {source.message}"

/-- The message and the messages of what caused it. -/
def chain (e : CommandError) : List String :=
  e.message :: match e with
    | spawn _ source | io source => [source.message]
    | empty | failed .. => []

end CommandError

/-- What a finished command that did not succeed failed with: its error output is shown as text,
without the blanks around it. -/
def CommandOutput.failure (o : CommandOutput) (argv : CommandLine) : CommandError :=
  .failed (argv.head?.getD "") o.code (Text.trim (Utf8.decodeLossy o.stderr))

end Rollout.Host

/-
The arguments of the command line.

`Arguments.ofList` reads them from left to right and then looks at the environment for what was not
given.  The first error wins.

Design notes: a value that is an argument of its own is looked at when the next option comes, or at
the end.  So an argument that cannot be understood at all is reported before a bad value in front
of it.
-/
import Rollout.CommandLine.Switch

namespace Rollout.CommandLine

/-- Why arguments cannot be used, or need no more than an answer. -/
inductive UsageError where
  | unknownArgument (argument : String)
  | missingValue (o : Switch)
  | invalidValue (o : Switch) (value : String)
  /-- A value where there can be none. -/
  | unneededValue (o : Switch) (value : String)
  | repeated (o : Switch)
  | severalSources
  | noSource
  /-- Help was asked for. -/
  | help
  /-- The version was asked for. -/
  | version
  deriving DecidableEq, Repr, Inhabited

/-- The code to end with: asking for help is no failure. -/
def UsageError.exitCode : UsageError → Nat
  | help | version => 0
  | _ => 2

/-- What is wrong, in a line. -/
def UsageError.message : UsageError → String
  | unknownArgument argument => s!"unexpected argument '{argument}'"
  | missingValue o => s!"--{o.longName} needs a value"
  | invalidValue o value => s!"'{value}' is no value for --{o.longName}"
  | unneededValue o value => s!"--{o.longName} takes no value, but '{value}' was given"
  | repeated o => s!"--{o.longName} can be given once only"
  | severalSources => "only one of --file, --name and --list can be given"
  | noSource => "one of --file, --name and --list is needed"
  | help => "topoc: compiles application specifications onto a deployment backend"
  | version => "topoc 0.1.0"

/-- The options with their values, in the order in which they were given. -/
structure Arguments where
  given : List (Switch × String) := []
  deriving DecidableEq, Repr, Inhabited

namespace Arguments

def has (a : Arguments) (o : Switch) : Bool := a.given.any (·.1 == o)

/-- The value of an option. -/
def value? (a : Arguments) (o : Switch) : Option String := a.given.lookup o

/-- The values of an option that may be repeated. -/
def values (a : Arguments) (o : Switch) : List String :=
  (a.given.filter (·.1 == o)).map Prod.snd

/-- Adds an option with its value. -/
def add (a : Arguments) (o : Switch) (value : String) : Except UsageError Arguments :=
  if o = .help then .error .help
  else if o = .version then .error .version
  else if a.has o && !o.repeats then .error (.repeated o)
  else if o.accepts value then .ok ⟨a.given ++ [(o, value)]⟩
  else .error (.invalidValue o value)

end Arguments

/-! ### Reading -/

/-- Arguments being read, with the option that came last while its value is not looked at. -/
structure Reading where
  arguments : Arguments := {}
  pending : Option (Switch × Option String) := none

namespace Reading

/-- Looks at the value of the last option. -/
def settle (r : Reading) : Except UsageError Arguments :=
  match r.pending with
  | none => .ok r.arguments
  | some (o, none) => .error (.missingValue o)
  | some (o, some value) => r.arguments.add o value

/-- Takes an option with its value. -/
def takeWith (r : Reading) (o : Switch) (value : String) : Except UsageError Reading := do
  .ok { arguments := ← (← r.settle).add o value }

/-- Takes an option and what is attached to it. -/
def take (r : Reading) (o : Switch) (attached : Option String) : Except UsageError Reading :=
  match o.arity, attached with
  | .flag, some value => .error (.unneededValue o value)
  | .flag, none | .attached, none => r.takeWith o Switch.presentValue
  | .value, none => do .ok { arguments := ← r.settle, pending := some (o, none) }
  | _, some value => r.takeWith o value

/-- What is attached to a letter: the rest of the argument, without an equals sign in front. -/
def attachedTo : List Char → Option String
  | [] => none
  | '=' :: value => some (String.ofList value)
  | value => some (String.ofList value)

/-- Takes the letters behind a dash. -/
def takeLetters (r : Reading) : List Char → Except UsageError Reading
  | [] => .ok r
  | c :: rest =>
    match Switch.ofLetter? c with
    | none => .error (.unknownArgument (String.ofList ['-', c]))
    | some o =>
      if o.arity = .flag then do (← r.take o none).takeLetters rest
      else r.take o (attachedTo rest)

/-- A name and what stands behind the first equals sign. -/
def splitValue (cs : List Char) : String × Option String :=
  let name := cs.takeWhile (· != '=')
  let attached := (cs.drop name.length).tail
  (String.ofList name,
    if name.length < cs.length then some (String.ofList attached) else none)

/-- Takes a name behind two dashes. -/
def takeName (r : Reading) (cs : List Char) : Except UsageError Reading :=
  let (name, attached) := splitValue cs
  match Switch.ofLongName? name with
  | none => .error (.unknownArgument ("--" ++ name))
  | some o => r.take o attached

/-- Takes an argument that is no option: the value of the last option, or nothing known. -/
def takeValue (r : Reading) (argument : String) : Except UsageError Reading :=
  match r.pending with
  | some (o, none) => .ok { r with pending := some (o, some argument) }
  | _ => .error (.unknownArgument argument)

/-- Takes one argument; a dash alone is a value. -/
def takeArgument (r : Reading) (argument : String) : Except UsageError Reading :=
  match argument.toList with
  | '-' :: '-' :: name => r.takeName name
  | '-' :: c :: letters => r.takeLetters (c :: letters)
  | _ => r.takeValue argument

/-- Takes arguments up to two dashes, behind which there must be none. -/
def takeAll (r : Reading) : List String → Except UsageError Arguments
  | [] => r.settle
  | argument :: rest =>
    if argument = "--" then
      match rest with
      | [] => r.settle
      | extra :: _ => .error (.unknownArgument extra)
    else do (← r.takeArgument argument).takeAll rest

end Reading

namespace Arguments

/-- Adds an option that was not given from its variable. -/
def addVariable (lookup : String → Option String) (a : Arguments) (o : Switch) :
    Except UsageError Arguments :=
  match o.environmentName?.bind lookup with
  | some value => if a.has o then .ok a else a.add o value
  | none => .ok a

/-- There is exactly one source. -/
def checkSource (a : Arguments) : Except UsageError Unit :=
  match a.given.filter (·.1.isSource) with
  | [] => .error .noSource
  | [_] => .ok ()
  | _ => .error .severalSources

/-- Reads arguments; the environment has the rest. -/
def ofList (lookup : String → Option String) (arguments : List String) :
    Except UsageError Arguments := do
  let a ← ({} : Reading).takeAll arguments
  let a ← Switch.all.foldlM (addVariable lookup) a
  a.checkSource
  .ok a

end Arguments

end Rollout.CommandLine

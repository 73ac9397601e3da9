/-
A running shell, and the commands that it carries out itself.

The state has the variables, where the outputs lead, what was written so far and why the shell does
not go on, if so.  A builtin command changes the state; those that run other commands are part of
the evaluation.

Design notes: what is written goes to one log, each part with the sink it went to, so that an output
led into another keeps its place among the parts of that one.
-/
import Rollout.Shell.Glob
import Rollout.Shell.Print
import Rollout.Shell.Script
import Rollout.Shell.Tool

namespace Rollout.Shell

/-- Where an output leads. -/
inductive Sink where
  | out
  | err
  | nowhere
  /-- A pipe, or the output that a script asks for. -/
  | pipe (n : Nat)
  | file (path : String)
  deriving DecidableEq, Repr, Inhabited

/-- Why the shell does not go on. -/
inductive Stop where
  | exited
  | killed
  /-- Out of so many loops. -/
  | left (loops : Nat)
  /-- To the next round of a loop, out of all but one of so many. -/
  | again (loops : Nat)
  | returned
  deriving DecidableEq, Repr, Inhabited

/-- A running shell. -/
structure Process where
  vars : List (String × String) := []
  exported : List String := []
  functions : List (String × Command) := []
  /-- The name of the script and its parameters. -/
  args : List String := []
  input : Bytes := []
  outTo : Sink := .out
  errTo : Sink := .err
  /-- What was written, the latest first. -/
  log : List (Sink × Bytes) := []
  /-- How many pipes there have been around this one. -/
  pipes : Nat := 0
  files : List (String × Bytes) := []
  /-- What to run on a signal, or at the end. -/
  traps : List (String × String) := []
  exitOnFailure : Bool := false
  /-- How many loops are around the current command. -/
  depth : Nat := 0
  /-- The line of the script. -/
  line : Nat := 1
  status : Nat := 0
  stop : Option Stop := none
  deriving Inhabited

/-- Paths that are there but are no programs. -/
def directories : List String :=
  ["/", ".", "..", "./", "../", "/bin", "/tmp", "/usr", "/etc", "/var", "/dev", "/home"]

/-- The number that a shell goes by. -/
def processId : String := "4242"

namespace Process

/-! ### Outputs and files -/

/-- What went to a sink. -/
def written (s : Process) (sink : Sink) : Bytes :=
  (s.log.reverse.filter (·.1 == sink)).flatMap Prod.snd

def writeTo (s : Process) (sink : Sink) (bs : Bytes) : Process :=
  match sink with
  | .nowhere => s
  | .file path =>
    { s with files := (path, (s.files.lookup path).getD [] ++ bs)
        :: s.files.filter (·.1 != path) }
  | sink => if bs.isEmpty then s else { s with log := (sink, bs) :: s.log }

def write (s : Process) (bs : Bytes) : Process := s.writeTo s.outTo bs

def writeErr (s : Process) (bs : Bytes) : Process := s.writeTo s.errTo bs

/-- Says what is wrong. -/
def complain (s : Process) (status : Nat) (message : String) : Process :=
  let name := s.args.headD "sh"
  { s.writeErr (Utf8.encode s!"{name}: {s.line}: {message}\n") with status }

/-- The content of a file, or of a device. -/
def file? (s : Process) (path : String) : Option Bytes :=
  match path with
  | "/dev/null" => some []
  | "/dev/stdin" => some s.input
  | path => s.files.lookup path

/-- Where a path leads that is written to. -/
def sinkOf (s : Process) (path : String) : Sink :=
  match path with
  | "/dev/null" => .nowhere
  | "/dev/stdout" => s.outTo
  | "/dev/stderr" => s.errTo
  | path => .file path

def setSink (s : Process) (descriptor : Nat) (sink : Sink) : Process :=
  match descriptor with
  | 1 => { s with outTo := sink }
  | 2 => { s with errTo := sink }
  | _ => s

/-- The directory of a file is there. -/
def hasDirectory (sink : Sink) : Bool :=
  match sink with
  | .file path =>
    let directory := (path.toList.reverse.dropWhile (· != '/')).drop 1
    !path.contains '/' || directory.isEmpty ||
      directories.contains (String.ofList directory.reverse)
  | _ => true

/-- Leads a descriptor somewhere else. -/
def redirect (s : Process) (r : Redirect) (target : String) : Except String Process :=
  match r.arrow with
  | "<" => match s.file? target with
    | some bs => .ok { s with input := bs }
    | none => .error s!"cannot open {target}: No such file"
  | ">" | ">|" =>
    let sink := s.sinkOf target
    if !hasDirectory sink then .error s!"cannot create {target}: Directory nonexistent"
    else
    let s := match sink with
      | .file path => { s with files := (path, []) :: s.files.filter (·.1 != path) }
      | _ => s
    .ok (s.setSink (r.descriptor.getD 1) sink)
  | ">>" => .ok (s.setSink (r.descriptor.getD 1) (s.sinkOf target))
  | ">&" => match target with
    | "1" => .ok (s.setSink (r.descriptor.getD 1) s.outTo)
    | "2" => .ok (s.setSink (r.descriptor.getD 1) s.errTo)
    | "-" => .ok (s.setSink (r.descriptor.getD 1) .nowhere)
    | target => .error s!"{target}: Bad file descriptor"
  | _ => .ok s

/-- What a process leaves to the one that started it. -/
def join (s child : Process) : Process :=
  { s with
    log := child.log
    files := child.files
    input := child.input
    status := child.status
    stop := if child.stop == some .killed then child.stop else none }

/-- Runs something apart. -/
def fork (s : Process) (body : Process → Process) : Process :=
  s.join (body { s with traps := [] })

/-- Runs something apart and takes what it writes. -/
def capture (s : Process) (body : Process → Process) : Process × Bytes :=
  let sink := Sink.pipe s.pipes
  let child := body { s with log := [], outTo := sink, pipes := s.pipes + 1, traps := [] }
  let others := child.log.filter (·.1 != sink)
  ({ s.join child with log := others ++ s.log }, child.written sink)

/-! ### Variables -/

def set (s : Process) (name value : String) : Process :=
  { s with vars := (name, value) :: s.vars.filter (·.1 != name) }

/-- The value of a parameter, if it is set. -/
def param? (s : Process) (name : String) : Option String :=
  match name with
  | "@" | "*" => some (" ".intercalate (s.args.drop 1))
  | "#" => some (toString (s.args.length - 1))
  | "?" => some (toString s.status)
  | "$" => some processId
  | "-" => some ""
  | n => match n.toNat? with
    | some i => s.args[i]?
    | none => s.vars.lookup n

/-- A name and a value with an equals sign between them. -/
def assignment? (text : String) : Option (String × String) :=
  let name := text.toList.takeWhile isNameChar
  match name, text.toList.drop name.length with
  | c :: _, '=' :: value =>
    if isNameStart c then some (String.ofList name, String.ofList value) else none
  | _, _ => none

/-- Sets the variables of arguments, and marks them for programs. -/
def exportAll (s : Process) (args : List String) : Process :=
  args.foldl (fun s a =>
    match assignment? a with
    | some (name, value) => { s.set name value with exported := name :: s.exported }
    | none => { s with exported := a :: s.exported }) { s with status := 0 }

/-! ### Single commands -/

def ofBool (b : Bool) : Nat := if b then 0 else 1

/-- Whether a condition holds. -/
def holds (s : Process) : List String → Bool
  | ["!", a] => a.isEmpty
  | ["-n", a] => !a.isEmpty
  | ["-z", a] => a.isEmpty
  | ["-e", a] | ["-f", a] | ["-r", a] => (s.file? a).isSome
  | ["-s", a] => !((s.file? a).getD []).isEmpty
  | ["-d", a] => directories.contains a
  | [a, "=", b] => a == b
  | [a, "!=", b] => a != b
  | [a, "-eq", b] => a.toInt? == b.toInt?
  | [a, "-ne", b] => a.toInt? != b.toInt?
  | [a, "-lt", b] => a.toInt?.getD 0 < b.toInt?.getD 0
  | [a, "-le", b] => a.toInt?.getD 0 ≤ b.toInt?.getD 0
  | [a, "-gt", b] => a.toInt?.getD 0 > b.toInt?.getD 0
  | [a, "-ge", b] => a.toInt?.getD 0 ≥ b.toInt?.getD 0
  | "!" :: rest => !s.holds rest
  | [a] => !a.isEmpty
  | _ => false

/-- Splits a text at blanks. -/
def words (text : String) : List String :=
  ((text.toList.splitOnP (fun c => c == ' ' || c == '\t' || c == '\n')).filter
    (!·.isEmpty)).map String.ofList

/-- Gives each variable its word; the last has all that are left. -/
def assignWords : Process → List String → List String → Process
  | s, [], _ => s
  | s, [name], ws => s.set name (" ".intercalate ws)
  | s, name :: names, ws => assignWords (s.set name (ws.headD "")) names (ws.drop 1)

/-- Reads a line. -/
def readLine (s : Process) (names : List String) : Process :=
  let line := s.input.takeWhile (· != Tool.newline)
  let s := s.assignWords names (words (Utf8.decodeLossy line))
  { s with
    input := s.input.drop (line.length + 1)
    status := if line.length < s.input.length then 0 else 1 }

/-- Ends with a code. -/
def exit (s : Process) (args : List String) : Process :=
  match args with
  | [] => { s with stop := some .exited }
  | n :: _ => match n.toNat? with
    | some n => { s with status := n % 256, stop := some .exited }
    | none => { s.complain 2 s!"exit: Illegal number: {n}" with stop := some .exited }

/-- Options and parameters of the shell itself. -/
def options (s : Process) : List String → Process
  | [] => { s with status := 0 }
  | "--" :: args => { s with args := s.args.take 1 ++ args, status := 0 }
  | a :: rest =>
    match a.toList with
    | '-' :: letters =>
      options { s with exitOnFailure := s.exitOnFailure || letters.contains 'e' } rest
    | '+' :: letters =>
      options { s with exitOnFailure := s.exitOnFailure && !letters.contains 'e' } rest
    | _ => { s with args := s.args.take 1 ++ (a :: rest), status := 0 }

/-- Writes arguments with their escapes replaced. -/
def echo (s : Process) (args : List String) : Process :=
  let (line, args) := match args with
    | "-n" :: args => ([], args)
    | args => ([Tool.newline], args)
  let (bs, ends) := Print.unescape 0 (" ".intercalate args).toList
  { s.write (if ends then bs else bs ++ line) with status := 0 }

/-- Signals by name; zero is the end of the script. -/
def signals : List (String × String) :=
  [("0", "EXIT"), ("1", "HUP"), ("2", "INT"), ("3", "QUIT"), ("6", "ABRT"), ("9", "KILL"),
    ("10", "USR1"), ("12", "USR2"), ("13", "PIPE"), ("14", "ALRM"), ("15", "TERM"), ("17", "CHLD"),
    ("18", "CONT")]

def signalName (s : String) : String :=
  let s := if s.startsWith "SIG" then (s.drop 3).toString else s
  (signals.lookup s).getD s

/-- Signals that end nothing. -/
def harmless : List String := ["EXIT", "CHLD", "CONT"]

/-- The signal that is sent, and to whom. -/
def killTarget : List String → String × List String
  | "-s" :: name :: rest => (signalName name, rest)
  | a :: rest =>
    match a.toList with
    | '-' :: name => (signalName (String.ofList name), rest.filter (· != "--"))
    | _ => ("TERM", a :: rest)
  | [] => ("TERM", [])

/-- Keeps what to run on signals; a dash takes it back. -/
def trap (s : Process) : List String → Process
  | "-" :: names =>
    { s with traps := s.traps.filter (!(names.map signalName).contains ·.1), status := 0 }
  | script :: names =>
    { s with traps := names.map (fun n => (signalName n, script)) ++ s.traps, status := 0 }
  | [] => { s with status := 0 }

/-- The count that a command takes as its argument. -/
def loops (args : List String) : Nat := ((args.head?.bind String.toNat?).getD 1)

/-- Leaves as many loops as are asked for, if there are so many. -/
def outOf (s : Process) (args : List String) (stop : Nat → Stop) : Option Stop :=
  if s.depth == 0 then none else some (stop (min (loops args) s.depth))

/-- A command that the shell carries out itself. -/
def builtin? (s : Process) (name : String) (args : List String) : Option Process :=
  match name, args with
  | "true", _ | ":", _ | "wait", _ | "ulimit", _ | "umask", _ => some { s with status := 0 }
  | "false", _ => some { s with status := 1 }
  | "echo", args => some (s.echo args)
  | "printf", f :: args => some { s.write (Print.format f.toList args) with status := 0 }
  | "exit", args => some (s.exit args)
  | "return", args => some { s.exit args with stop := some .returned }
  | "break", args => some { s with status := 0, stop := s.outOf args Stop.left }
  | "continue", args => some { s with status := 0, stop := s.outOf args Stop.again }
  | "read", args => some (s.readLine (args.filter (!·.startsWith "-")))
  | "shift", args =>
    if s.args.length ≤ loops args then
      some { s.complain 2 "shift: can't shift that many" with stop := some .exited }
    else some { s with args := s.args.take 1 ++ s.args.drop (1 + loops args), status := 0 }
  | "set", args => some (s.options args)
  | "unset", args => some { s with vars := s.vars.filter (!args.contains ·.1), status := 0 }
  | "export", args | "readonly", args | "local", args => some (s.exportAll args)
  | "cd", args => some { s.set "PWD" (args.headD "/") with status := 0 }
  | "pwd", _ => some { s.write (Utf8.encode ((s.param? "PWD").getD "/" ++ "\n")) with status := 0 }
  | "trap", args => some (s.trap args)
  | "test", args => some { s with status := ofBool (s.holds args) }
  | "[", args => some { s with status := ofBool (s.holds args.dropLast) }
  | _, _ => none

end Process

end Rollout.Shell

/-
Running shell scripts as processes of their own.

`run` executes a script with its parameters and gives its code and what it wrote.  The standard
input is empty and no other program is found than the few of `Tool`, so what a script does depends
on its text and the environment alone.

Design notes: a script need not end, so evaluation has a bound; it counts down with each command
inside another and with each round of a loop.
-/
import Rollout.Host.Command
import Rollout.Shell.Arithmetic
import Rollout.Shell.Builtin

namespace Rollout.Shell

/-! ### Fields -/

/-- A part of an expanded word, or the place where one field ends and the next begins. -/
inductive Segment where
  | part (s : String) (quoted : Bool)
  | gap
  deriving Repr, Inhabited

namespace Segment

/-- Joins the parts between two gaps; a gap beside another makes no field. -/
def fields (segments : List Segment) : List String :=
  let (done, open?) := segments.foldl (fun (acc : List String × Option String) seg =>
    match seg, acc with
    | .part s _, (done, current) => (done, some (current.getD "" ++ s))
    | .gap, (done, some field) => (field :: done, none)
    | .gap, (done, none) => (done, none)) ([], none)
  (open?.toList ++ done).reverse

/-- All parts as one text; a gap is a blank. -/
def text (segments : List Segment) : String :=
  "".intercalate (segments.map fun seg => match seg with
    | .part s _ => s
    | .gap => " ")

/-- The pattern that the parts make. -/
def glob (segments : List Segment) : List Glob.Item :=
  segments.flatMap fun seg => match seg with
    | .part s quoted => Glob.ofPart s quoted
    | .gap => [.char ' ']

/-- A value outside quotes: it is split at blanks. -/
def split (value : String) : List Segment :=
  let pieces := value.toList.splitOnP fun c => c == ' ' || c == '\t' || c == '\n'
  (pieces.map fun cs => if cs.isEmpty then [] else [part (String.ofList cs) false])
    |>.intersperse [gap] |>.flatten

/-- A value, split unless it is quoted. -/
def ofValue (value : String) (inQuotes : Bool) : List Segment :=
  if inQuotes then [part value true] else split value

/-- Several values, a field each. -/
def ofValues (values : List String) : List Segment :=
  (values.map fun v => [part v true]).intersperse [gap] |>.flatten

end Segment

/-- What a parameter's value is changed by, or replaced with. -/
structure Modifier where
  name : String
  /-- The operator; empty where there is none. -/
  op : String := ""
  word : String := ""
  deriving Repr, Inhabited

namespace Modifier

def ops : List String := [":-", ":=", ":+", ":?", "-", "=", "+", "?", "%%", "##", "%", "#"]

/-- Reads what stands in the braces. -/
def read (content : String) : Modifier :=
  let cs := content.toList
  match cs with
  | '#' :: c :: rest =>
    if isNameStart c || c.isDigit then { name := String.ofList (c :: rest), op := "length" }
    else withName "#" (c :: rest)
  | c :: rest =>
    if isNameStart c then
      let name := cs.takeWhile isNameChar
      withName (String.ofList name) (cs.drop name.length)
    else if c.isDigit then
      let name := cs.takeWhile Char.isDigit
      withName (String.ofList name) (cs.drop name.length)
    else withName c.toString rest
  | [] => { name := "" }
where
  withName (name : String) (cs : List Char) : Modifier :=
    let text := String.ofList cs
    match ops.find? (fun op => text.startsWith op) with
    | some op => { name, op, word := (text.drop op.length).toString }
    | none => { name, op := "", word := "" }

end Modifier

/-- A word that sets a variable: its name and the word of the value. -/
def assignedWord? : Word → Option (String × Word)
  | .text t false :: more =>
    (Process.assignment? t).map fun (name, value) => (name, .text value false :: more)
  | _ => none

/-- A word with the output of a script in it. -/
def asksForOutput (w : Word) : Bool :=
  w.any fun p => match p with
    | .output .. => true
    | _ => false

/-- A text without the newlines at its end. -/
def dropNewlines (s : String) : String :=
  String.ofList (s.toList.reverse.dropWhile (· == '\n')).reverse

/-- Names of the shell as a program. -/
def shellNames : List String := ["sh", "/bin/sh"]

namespace Process

/-- After a round of a loop: the state, and whether there may be another round. -/
def nextRound (s : Process) : Process × Bool :=
  match s.stop with
  | none => (s, true)
  | some (.left n) => ({ s with stop := if n ≤ 1 then none else some (.left (n - 1)) }, false)
  | some (.again n) =>
    if n ≤ 1 then ({ s with stop := none }, true)
    else ({ s with stop := some (.again (n - 1)) }, false)
  | some _ => (s, false)

/-- After a loop. -/
def leaveLoop (s : Process) : Process := { s with depth := s.depth - 1 }

/-- A failure that nothing looks at ends a shell that is told so. -/
def stopOnFailure (s : Process) (tested : Bool) : Process :=
  if s.exitOnFailure && !tested && s.status != 0 && s.stop.isNone then
    { s with stop := some .exited }
  else s

/-- Runs a program that is none of the shell's own commands. -/
def program (s : Process) (name : String) (args : List String) : Process :=
  match Tool.run? { file? := s.file?, input := s.input } name args with
  | some o =>
    { (s.write o.out).writeErr o.err with
      status := o.status
      input := if Tool.readers.contains name then [] else s.input }
  | none =>
    if directories.contains name && name.contains '/' || name.isEmpty then
      s.complain (if name.isEmpty then 127 else 126) s!"{name}: Permission denied"
    else s.complain 127 s!"{name}: not found"

/-! ### Evaluation -/

mutual

/-- What a piece of a word stands for. -/
def segments : Nat → Process → Piece → Process × List Segment
  | 0, s, _ => (s, [])
  | fuel + 1, s, piece =>
    match piece with
    | .text t q => (s, [.part t q])
    | .output script q =>
      let (s, bs) := s.capture fun child => runScript fuel child script
      (s, Segment.ofValue (dropNewlines (Utf8.decodeLossy bs)) q)
    | .value expression q =>
      match Arithmetic.evaluate? (fun n => ((s.param? n).bind String.toInt?).getD 0) expression with
      | some n => (s, Segment.ofValue (toString n) q)
      | none =>
        ({ s.complain 2 s!"arithmetic expression: expecting primary: \"{expression}\"" with
            stop := some .exited }, [])
    | .param "@" true => (s, Segment.ofValues (s.args.drop 1))
    | .param content q =>
      let m := Modifier.read content
      let value := s.param? m.name
      let filled := value.filter fun v => !(v.isEmpty && m.op.startsWith ":")
      let ofWord (s : Process) := standIn fuel s m.word q
      match m.op with
      | "length" => (s, Segment.ofValue (toString (value.getD "").length) q)
      | "-" | ":-" => match filled with
        | some v => (s, Segment.ofValue v q)
        | none => ofWord s
      | "=" | ":=" => match filled with
        | some v => (s, Segment.ofValue v q)
        | none =>
          let (s, segs) := ofWord s
          (s.set m.name (Segment.text segs), segs)
      | "+" | ":+" => if filled.isSome then ofWord s else (s, if q then [.part "" true] else [])
      | "?" | ":?" => match filled with
        | some v => (s, Segment.ofValue v q)
        | none =>
          let (s, segs) := ofWord s
          let text := if m.word.isEmpty then "parameter not set" else Segment.text segs
          ({ s.complain 2 s!"{m.name}: {text}" with stop := some .exited }, [])
      | "#" | "##" =>
        let (s, segs) := ofWord s
        (s, Segment.ofValue (String.ofList (Glob.dropFront (m.op == "##") (Segment.glob segs)
          (value.getD "").toList)) q)
      | "%" | "%%" =>
        let (s, segs) := ofWord s
        (s, Segment.ofValue (String.ofList (Glob.dropBack (m.op == "%%") (Segment.glob segs)
          (value.getD "").toList)) q)
      | _ => (s, Segment.ofValue (value.getD "") q)

/-- The text that stands in for a parameter is read as a word itself. -/
def standIn : Nat → Process → String → Bool → Process × List Segment
  | 0, s, _, _ => (s, [])
  | fuel + 1, s, text, inQuotes =>
    match tokens? (if inQuotes then "\"" ++ text ++ "\"" else text) with
    | .ok ts =>
      let pieces := (ts.filterMap fun t => match t with
        | .word w => some w
        | _ => none).intersperse [.text " " false]
      expand fuel s pieces.flatten
    | .error _ => (s, [.part text inQuotes])

/-- The segments of a word. -/
def expand : Nat → Process → Word → Process × List Segment
  | 0, s, _ => (s, [])
  | fuel + 1, s, w =>
    w.foldl (fun (acc : Process × List Segment) p =>
      let (s, segs) := segments fuel acc.1 p
      (s, acc.2 ++ segs)) (s, [])

/-- The fields of words. -/
def expandAll : Nat → Process → List Word → Process × List String
  | 0, s, _ => (s, [])
  | fuel + 1, s, ws =>
    ws.foldl (fun (acc : Process × List String) w =>
      let (s, segs) := expand fuel acc.1 w
      (s, acc.2 ++ Segment.fields segs)) (s, [])

/-- Follows redirections. -/
def redirectAll : Nat → Process → List Redirect → Except Process Process
  | 0, s, _ => .error s
  | fuel + 1, s, rs =>
    rs.foldlM (fun s r =>
      let (s, segs) := expand fuel s r.target
      match s.redirect r (Segment.text segs) with
      | .ok s => .ok s
      | .error message => .error (s.complain 2 message)) s

/-- Runs a command with redirections, and takes them back afterwards. -/
def redirected : Nat → Process → List Redirect → (Process → Process) → Process
  | 0, s, _, _ => s
  | fuel + 1, s, rs, body =>
    let back (after : Process) : Process :=
      { after with
        outTo := s.outTo
        errTo := s.errTo
        input := if rs.any (·.arrow == "<") then s.input else after.input }
    match redirectAll fuel s rs with
    | .ok s => back (body s)
    | .error s => back s

/-- Runs a script in this shell, line by line. -/
def runScript : Nat → Process → String → Process
  | 0, s, _ => s
  | fuel + 1, s, text =>
    match tokens? text with
    | .ok ts => lines fuel s ts
    | .error message => { s.complain 2 s!"Syntax error: {message}" with stop := some .exited }

/-- Runs what tokens say, line by line. -/
def lines : Nat → Process → List Token → Process
  | 0, s, _ => s
  | fuel + 1, s, ts =>
    if ts.isEmpty || s.stop.isSome then s
    else
      let s := { s with line := s.line + countLines ts - countLines (skipLines ts) }
      match takeLine ts with
      | .ok (cs, rest) =>
        let after := executeAll fuel s false cs
        lines fuel { after with line := s.line + countLines (skipLines ts) - countLines rest } rest
      | .error message =>
        let line := if message.startsWith "end of file" then s.line + countLines (skipLines ts)
          else s.line
        { { s with line }.complain 2 s!"Syntax error: {message}" with stop := some .exited }

/-- Sends a signal to this shell. -/
def signal : Nat → Process → String → Process
  | 0, s, _ => s
  | fuel + 1, s, name =>
    match if name == "KILL" then none else s.traps.lookup name with
    | some script => { runScript fuel s script with status := 0 }
    | none =>
      if harmless.contains name then { s with status := 0 } else { s with stop := some .killed }

/-- Runs a command with its arguments. -/
def call : Nat → Process → List String → Process
  | 0, s, _ => s
  | _ + 1, s, [] => s
  | fuel + 1, s, name :: args =>
    match s.functions.lookup name with
    | some body =>
      let after := execute fuel { s with args := s.args.take 1 ++ args, depth := 0 } body
      { after with
        args := s.args
        depth := s.depth
        stop := if after.stop == some .returned then none else after.stop }
    | none =>
      match s.builtin? name args with
      | some after => after
      | none =>
        match name, args with
        | "eval", args => runScript fuel s (" ".intercalate args)
        | "exec", [] => { s with status := 0 }
        | "exec", args =>
          let after := call fuel s args
          { after with stop := some (after.stop.getD .exited), traps := [] }
        | "command", args => call fuel { s with functions := [] } args
        | "kill", args =>
          let (name, targets) := killTarget args
          if targets.contains processId then signal fuel s name
          else s.complain 1 "kill: No such process"
        | name, args =>
          if shellNames.contains name then
            match args with
            | "-c" :: text :: rest =>
              s.fork fun child =>
                let vars := child.vars.filter (s.exported.contains ·.1)
                let args := if rest.isEmpty then [name] else rest
                finish fuel (runScript fuel
                  { child with vars, functions := [], args, exitOnFailure := false } text)
            | _ => { s with status := 0 }
          else s.program name args

/-- Runs what is kept for the end of a script. -/
def finish : Nat → Process → Process
  | 0, s => s
  | fuel + 1, s =>
    match s.stop, s.traps.lookup "EXIT" with
    | some .killed, _ | _, none => s
    | stop, some script =>
      let after := runScript fuel { s with stop := none, traps := [] } script
      if after.stop.isSome then after else { after with status := s.status, stop }

/-- Runs a command. -/
def execute : Nat → Process → Command → Process
  | 0, s, _ => { s with status := 2, stop := some .exited }
  | fuel + 1, s, command =>
    match command with
    | .simple words rs =>
      let assigned := words.takeWhile fun w => (assignedWord? w).isSome
      let (before, argv) := expandAll fuel s (words.drop assigned.length)
      let during := (assigned.filterMap assignedWord?).foldl (fun s (name, value) =>
        let (s, segs) := expand fuel s value
        { s.set name (Segment.text segs) with
          exported := if argv.isEmpty then s.exported else name :: s.exported }) before
      if during.stop.isSome then during
      else match argv with
        | [] =>
          let status := if words.any asksForOutput then during.status else 0
          redirected fuel { during with status } rs id
        | ["exec"] => match redirectAll fuel during rs with
          | .ok s => { s with status := 0 }
          | .error s => { s with stop := some .exited }
        | argv =>
          let after := redirected fuel during rs fun s => call fuel s argv
          if assigned.isEmpty then after
          else { after with vars := before.vars, exported := before.exported }
    | .group true body => s.fork fun child => finish fuel (executeAll fuel child false body)
    | .group false body => executeAll fuel s false body
    | .redirected body rs => redirected fuel s rs fun s => execute fuel s body
    | .forEach var words body =>
      let (s, values) := match words with
        | some ws => expandAll fuel s ws
        | none => (s, s.args.drop 1)
      (values.foldl (fun (acc : Process × Bool) v =>
        if acc.2 then (executeAll fuel (acc.1.set var v) false body).nextRound else acc)
        ({ s with status := 0, depth := s.depth + 1 }, true)).1.leaveLoop
    | .loop wanted cond body =>
      (rounds fuel { s with depth := s.depth + 1 } wanted cond body).leaveLoop
    | .branch cond yes no =>
      let s := executeAll fuel s true cond
      if s.stop.isSome then s
      else if s.status == 0 then executeAll fuel s false yes
      else executeAll fuel { s with status := 0 } false no
    | .choose subject arms =>
      let (s, segs) := expand fuel s subject
      let text := (Segment.text segs).toList
      let (s, chosen) := arms.foldl (fun (acc : Process × Option Commands) (arm : _ × Commands) =>
        if acc.2.isSome then acc
        else arm.1.foldl (fun acc pattern =>
          if acc.2.isSome then acc
          else
            let (s, segs) := expand fuel acc.1 pattern
            (s, if Glob.fits (Segment.glob segs) text then some arm.2 else none)) acc) (s, none)
      executeAll fuel { s with status := 0 } false (chosen.getD [])
    | .define name body =>
      { s with functions := (name, body) :: s.functions, status := 0 }
    | .pipeline negated commands =>
      let last := commands.getLast?
      let (s, bytes) := commands.dropLast.foldl (fun (acc : Process × Option Bytes) c =>
        if acc.1.stop.isSome then acc
        else
          let input := acc.2.getD acc.1.input
          let (after, bs) := { acc.1 with input }.capture fun child => execute fuel child c
          ({ after with input := acc.1.input }, some bs)) (s, none)
      let s := match bytes, last, s.stop with
        | some bs, some c, none =>
          let after := { s with input := bs }.fork fun child => execute fuel child c
          { after with input := s.input }
        | none, some c, none => execute fuel s c
        | _, _, _ => s
      if negated then { s with status := ofBool (s.status != 0) } else s
    | .background body =>
      { s.fork fun child => executeAll fuel child false body with status := 0 }

/-- Runs the rounds of a loop. -/
def rounds : Nat → Process → Bool → Commands → Commands → Process
  | 0, s, _, _, _ => { s with status := 2, stop := some .exited }
  | fuel + 1, s, wanted, cond, body =>
    let tested := executeAll fuel s true cond
    if tested.stop.isSome then tested.nextRound.1
    else if (tested.status == 0) != wanted then { tested with status := 0 }
    else
      match (executeAll fuel tested false body).nextRound with
      | (s, true) => rounds fuel s wanted cond body
      | (s, false) => s

/-- Runs commands one after another; with `tested`, their failure is looked at. -/
def executeAll : Nat → Process → Bool → Commands → Process
  | 0, s, _, _ => { s with status := 2, stop := some .exited }
  | _ + 1, s, _, [] => s
  | fuel + 1, s, tested, (condition, c) :: rest =>
    let skip := s.stop.isSome || match condition with
      | .always => false
      | .afterSuccess => s.status != 0
      | .afterFailure => s.status == 0
    let joined := match rest with
      | (.always, _) :: _ | [] => false
      | _ => true
    if skip then executeAll fuel s tested rest
    else
      let looked := tested || joined
      let after := execute fuel { s with exitOnFailure := s.exitOnFailure && !looked } c
      let after := if looked then { after with exitOnFailure := s.exitOnFailure } else after
      executeAll fuel (after.stopOnFailure looked) tested rest

end

end Process

/-- So many commands may be inside one another, and so many rounds may a loop have. -/
def bound : Nat := 1000000

/-- Runs a script with its name and parameters. -/
def run (env : List (String × String)) (script : String) (args : List String) :
    Host.CommandOutput :=
  let s : Process := { vars := env, exported := env.map Prod.fst, args }
  let s := Process.finish bound (Process.runScript bound s script)
  { code := if s.stop == some .killed then none else some s.status
    stdout := s.written .out
    stderr := s.written .err }

/-- What a shell gives that finds no script. -/
def refusal (program message : String) : Host.CommandOutput :=
  { code := some 2, stderr := Utf8.encode s!"{program}: 0: {message}\n" }

/-- Starts a program: the shell with a script, or nothing. -/
def spawn (env : List (String × String)) (argv : Host.CommandLine) :
    Except Host.CommandError Host.CommandOutput :=
  match argv with
  | [] => .error .empty
  | program :: args =>
    if shellNames.contains program then
      match args with
      | "-c" :: script :: rest =>
        .ok (run env script (if rest.isEmpty then [program] else rest))
      | ["-c"] => .ok (refusal program "-c requires an argument")
      | path :: _ =>
        .ok (if path.startsWith "-" then { code := some 0 }
          else refusal program s!"cannot open {path}: No such file")
      | [] => .ok { code := some 0 }
    else if program.contains '/' && directories.contains program then
      .error (.spawn program .accessDenied)
    else .error (.spawn program .notFound)

end Rollout.Shell

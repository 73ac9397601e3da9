/-
Files and directories.

A tree maps places, lists of names, to what is there.  Paths are resolved step by step, so a step
through something that is no directory fails before the next one is looked at.

A tree is either that of the whole file system, with the place of the working directory in it, or
only what is below the working directory.
-/
import Rollout.Host.Error
import Rollout.Host.Path
import Rollout.Text.Utf8

namespace Rollout.Host

inductive Entry where
  | file (content : Bytes)
  | directory
  deriving DecidableEq, Repr, Inhabited

/-- The names on the way from the top of the tree. -/
abbrev Place := List String

structure FileTree where
  entries : List (Place × Entry) := []
  /-- Where relative paths start; when there is none they start at the top, and nothing is known
  outside. -/
  workingDir : Option Place := none
  deriving Repr, Inhabited

namespace FileTree

/-- What is at a place; the top itself is always there. -/
def at? (t : FileTree) (place : Place) : Option Entry :=
  if place.isEmpty then some .directory else t.entries.lookup place

/-- The tree with an entry put at a place. -/
def put (t : FileTree) (place : Place) (e : Entry) : FileTree :=
  if (t.entries.lookup place).isSome then
    { t with entries := t.entries.map fun (p, old) => if p == place then (p, e) else (p, old) }
  else { t with entries := t.entries ++ [(place, e)] }

/-- The greatest number of bytes in a name. -/
def maxName : Nat := 255

/-- One step from a place that must be a directory. -/
def step (t : FileTree) (place : Place) (name : String) : Except Error Place :=
  match t.at? place with
  | none => .error .notFound
  | some (.file _) => .error .notDirectory
  | some .directory =>
    if name == "." then .ok place
    else if name == ".." then .ok place.dropLast
    else if maxName < name.utf8ByteSize then .error .nameTooLong
    else .ok (place ++ [name])

/-- The place that steps lead to; the last one need not exist. -/
def walk (t : FileTree) : Place → List String → Except Error Place
  | place, [] => .ok place
  | place, name :: rest => do t.walk (← t.step place name) rest

/-- The steps of a path as the file system takes them; a slash at the end is one more step. -/
def steps (p : String) : List String :=
  ((p.splitOn "/").filter (!·.isEmpty)) ++ if p.endsWith "/" then ["."] else []

/-- The place at which a path starts. -/
def start? (t : FileTree) (p : String) : Option Place :=
  if p.isEmpty then none
  else if Path.isAbsolute p then t.workingDir.map fun _ => []
  else some (t.workingDir.getD [])

/-- The place a path leads to. -/
def resolve (t : FileTree) (p : String) : Except Error Place :=
  match t.start? p with
  | none => .error .notFound
  | some place => t.walk place (steps p)

/-- The content of a file. -/
def read (t : FileTree) (p : String) : Except Error Bytes := do
  match t.at? (← t.resolve p) with
  | none => .error .notFound
  | some .directory => .error .isDirectory
  | some (.file content) => .ok content

/-- The content of a text file. -/
def readText (t : FileTree) (p : String) : Except Error String := do
  match Utf8.decode? (← t.read p) with
  | some s => .ok s
  | none => .error .notText

/-- There is a directory. -/
def isDirectory (t : FileTree) (p : String) : Bool :=
  match t.resolve p with
  | .ok place => t.at? place == some .directory
  | .error _ => false

/-- Puts a file in the place of whatever file was there. -/
def write (t : FileTree) (p : String) (content : Bytes) : Except Error FileTree := do
  let place ← t.resolve p
  match t.at? place with
  | some .directory => .error .isDirectory
  | _ => .ok (t.put place (.file content))

/-- Makes one directory where nothing is. -/
def makeDir (t : FileTree) (p : String) : Except Error FileTree := do
  let place ← t.resolve p
  match t.at? place with
  | some _ => .error .alreadyThere
  | none => .ok (t.put place .directory)

/-- Makes the directory of some steps and those above it, as far as they are missing. -/
def makeDirsFor (t : FileTree) (absolute : Bool) (steps : List String) : Except Error FileTree :=
  let p := Path.ofComponents absolute steps
  if steps.isEmpty then .ok t
  else match t.makeDir p with
    | .ok t => .ok t
    | .error .notFound =>
      match t.makeDirsFor absolute steps.dropLast with
      | .error e => .error e
      | .ok t =>
        match t.makeDir p with
        | .ok t => .ok t
        | .error e => if t.isDirectory p then .ok t else .error e
    | .error e => if t.isDirectory p then .ok t else .error e
termination_by steps.length
decreasing_by
  simp only [List.length_dropLast]
  have : 0 < steps.length := List.length_pos_iff.mpr (by simp_all)
  omega

/-- Makes a directory and those above it, as far as they are missing. -/
def makeDirs (t : FileTree) (p : String) : Except Error FileTree :=
  t.makeDirsFor (Path.isAbsolute p) (Path.components p)

/-- The files with their paths. -/
def files (t : FileTree) : List (String × Bytes) :=
  t.entries.filterMap fun (place, e) =>
    match e with
    | .file content => some ("/".intercalate place, content)
    | .directory => none

end FileTree

end Rollout.Host

/-
Programs that scripts use: what each writes, given its arguments, the files and the standard input.

A program is a function of those alone.  Files that are not there are named in its error output.
-/
import Rollout.Text.Utf8

namespace Rollout.Shell.Tool

/-- What a program gives. -/
structure Outcome where
  out : Bytes := []
  err : Bytes := []
  status : Nat := 0
  deriving Repr, Inhabited

/-- What a program can see. -/
structure Surroundings where
  file? : String → Option Bytes
  input : Bytes := []

/-- The newline. -/
def newline : UInt8 := 10

/-- The content of a file; a dash is the standard input. -/
def Surroundings.read (s : Surroundings) (program path : String) : Bytes × Bytes :=
  if path == "-" then (s.input, [])
  else match s.file? path with
    | some bs => (bs, [])
    | none => ([], Utf8.encode s!"{program}: {path}: No such file or directory\n")

/-- The contents of files one after another; without any, the standard input. -/
def Surroundings.readAll (s : Surroundings) (program : String) (paths : List String) : Outcome :=
  let parts := (if paths.isEmpty then ["-"] else paths).map (s.read program)
  let err := parts.flatMap Prod.snd
  { out := parts.flatMap Prod.fst, err, status := if err.isEmpty then 0 else 1 }

/-- The first lines, each with its newline. -/
def takeLines : Nat → Bytes → Bytes
  | 0, _ => []
  | _, [] => []
  | n + 1, b :: bs => b :: takeLines (if b == newline then n else n + 1) bs

/-- How many newlines there are. -/
def countLines (bs : Bytes) : Nat := bs.count newline

/-- What is left after the first lines. -/
def dropLines : Nat → Bytes → Bytes
  | 0, bs => bs
  | _, [] => []
  | n + 1, b :: bs => dropLines (if b == newline then n else n + 1) bs

/-- The last lines; a last line need have no newline. -/
def lastLines (n : Nat) (bs : Bytes) : Bytes :=
  let unended := if bs.getLast?.getD newline == newline then 0 else 1
  dropLines (countLines bs + unended - n) bs

/-- The number an option asks for, and the arguments after it. -/
def countOption (letter : Char) : List String → Option (Nat × List String)
  | a :: rest =>
    match a.toList with
    | '-' :: c :: digits =>
      if c == letter then
        if digits.isEmpty then
          match rest with
          | n :: rest => n.toNat?.map (·, rest)
          | [] => none
        else (String.ofList digits).toNat?.map (·, rest)
      else if letter == 'n' && c.isDigit then (String.ofList (c :: digits)).toNat?.map (·, rest)
      else none
    | _ => none
  | [] => none

/-- The beginning of a file. -/
def head (s : Surroundings) (args : List String) : Outcome :=
  match countOption 'c' args, countOption 'n' args with
  | some (n, ["/dev/zero"]), _ => { out := List.replicate n 0 }
  | some (n, paths), _ => let o := s.readAll "head" paths; { o with out := o.out.take n }
  | none, some (n, paths) => let o := s.readAll "head" paths; { o with out := takeLines n o.out }
  | none, none => let o := s.readAll "head" args; { o with out := takeLines 10 o.out }

/-- The end of a file. -/
def tail (s : Surroundings) (args : List String) : Outcome :=
  match countOption 'c' args, countOption 'n' args with
  | some (n, paths), _ =>
    let o := s.readAll "tail" paths
    { o with out := o.out.drop (o.out.length - n) }
  | none, some (n, paths) => let o := s.readAll "tail" paths; { o with out := lastLines n o.out }
  | none, none => let o := s.readAll "tail" args; { o with out := lastLines 10 o.out }

/-- Counts the standard input. -/
def count (s : Surroundings) (args : List String) : Outcome :=
  let line (n : Nat) : Outcome := { out := Utf8.encode s!"{n}\n" }
  match args with
  | ["-c"] => line s.input.length
  | ["-l"] => line (countLines s.input)
  | _ => { status := 1 }

/-- The bytes that a set of characters names: escapes and ranges. -/
def byteSet : List Char → Bytes
  | '\\' :: 'n' :: rest => 10 :: byteSet rest
  | '\\' :: 't' :: rest => 9 :: byteSet rest
  | '\\' :: '0' :: rest => 0 :: byteSet rest
  | '\\' :: c :: rest => String.utf8EncodeChar c ++ byteSet rest
  | a :: '-' :: b :: rest =>
    (List.range (b.toNat + 1 - a.toNat)).map (fun i => UInt8.ofNat (a.toNat + i)) ++ byteSet rest
  | c :: rest => String.utf8EncodeChar c ++ byteSet rest
  | [] => []

/-- Replaces or deletes bytes; the last replacement stands for all that are missing. -/
def replaceBytes (s : Surroundings) (args : List String) : Outcome :=
  match args with
  | ["-d", set] =>
    let bytes := byteSet set.toList
    { out := s.input.filter (!bytes.contains ·) }
  | [old, new] =>
    let old := byteSet old.toList
    let new := byteSet new.toList
    let last := new.getLast?.getD 0
    { out := s.input.map fun b => match old.idxOf? b with
        | some i => new[i]?.getD last
        | none => b }
  | _ => { status := 1 }

/-- The numbers of a range, a line each. -/
def range (args : List String) : Outcome :=
  let lines (low high : Int) : Outcome :=
    { out := (List.range (high + 1 - low).toNat).flatMap fun i =>
        Utf8.encode s!"{low + Int.ofNat i}\n" }
  match args.map String.toInt? with
  | [some high] => lines 1 high
  | [some low, some high] => lines low high
  | _ => { status := 1 }

/-- Programs that read the standard input. -/
def readers : List String := ["cat", "head", "tail", "wc", "tr"]

/-- The programs there are. -/
def run? (s : Surroundings) (program : String) (args : List String) : Option Outcome :=
  match program with
  | "cat" => some (s.readAll "cat" args)
  | "head" => some (head s args)
  | "tail" => some (tail s args)
  | "wc" => some (count s args)
  | "tr" => some (replaceBytes s args)
  | "seq" => some (range args)
  | "sleep" => some {}
  | _ => none

end Rollout.Shell.Tool

/-
File paths as texts.
-/

namespace Rollout.Host.Path

/-- A path as text; an absolute one begins with a slash. -/
def isAbsolute (p : String) : Bool := p.startsWith "/"

/-- A path inside a directory; an absolute path stands for itself. -/
def join (dir name : String) : String :=
  if isAbsolute name then name
  else if dir.isEmpty || dir.endsWith "/" then dir ++ name
  else dir ++ "/" ++ name

/-- The steps of a path: single dots say nothing, except at the front of a relative path. -/
def components (p : String) : List String :=
  let parts := (p.splitOn "/").filter (!·.isEmpty)
  match isAbsolute p, parts with
  | false, "." :: rest => "." :: rest.filter (· != ".")
  | _, parts => parts.filter (· != ".")

/-- The last step of a path when it is a name. -/
def fileName? (p : String) : Option String :=
  match (components p).getLast? with
  | some "." | some ".." | none => none
  | some name => some name

/-- What follows the last dot of the file name, unless that dot is its first character. -/
def extension? (p : String) : Option String :=
  match fileName? p with
  | none => none
  | some name =>
    let parts := name.splitOn "."
    match parts with
    | [] | [_] => none
    | ["", _] => none
    | parts => parts.getLast?

/-- The path of some steps. -/
def ofComponents (absolute : Bool) (steps : List String) : String :=
  (if absolute then "/" else "") ++ "/".intercalate steps

/-- The path without its last step, when it has one. -/
def parent? (p : String) : Option String :=
  match components p with
  | [] => none
  | steps => some (ofComponents (isAbsolute p) steps.dropLast)

end Rollout.Host.Path

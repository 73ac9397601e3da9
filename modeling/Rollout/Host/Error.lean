/-
Failures that the operating system reports.
-/

namespace Rollout.Host

inductive Error where
  | notFound
  | accessDenied
  | alreadyThere
  | notDirectory
  | isDirectory
  | nameTooLong
  /-- A file that should hold text holds other bytes. -/
  | notText
  /-- Any other failure, in its own words. -/
  | other (text : String)
  deriving DecidableEq, Repr, Inhabited

namespace Error

def message : Error → String
  | notFound => "No such file or directory (os error 2)"
  | accessDenied => "Permission denied (os error 13)"
  | alreadyThere => "File exists (os error 17)"
  | notDirectory => "Not a directory (os error 20)"
  | isDirectory => "Is a directory (os error 21)"
  | nameTooLong => "File name too long (os error 36)"
  | notText => "stream did not contain valid UTF-8"
  | other text => text

end Error

end Rollout.Host

/-
Texts as they are shown inside messages: between quotes, with everything escaped that would not
show as itself.
-/
import Rollout.Text.Category

namespace Rollout.Text

/-- A character that leaves no mark of its own, or changes the mark before it. -/
def isUnseen (c : Char) : Bool :=
  match Category.of c with
  | .control | .format | .surrogate | .privateUse | .unassigned
  | .lineSeparator | .paragraphSeparator | .nonspacingMark | .enclosingMark => true
  | .spaceSeparator => c != ' '
  | _ => false

/-- How one character is shown. -/
def literalChar (c : Char) : List Char :=
  match c with
  | '"' => ['\\', '"']
  | '\\' => ['\\', '\\']
  | '\n' => ['\\', 'n']
  | '\r' => ['\\', 'r']
  | '\t' => ['\\', 't']
  | '\x00' => ['\\', '0']
  | c =>
    if isUnseen c then '\\' :: 'u' :: '\x7b' :: (Nat.toDigits 16 c.toNat ++ ['\x7d'])
    else [c]

/-- A text between quotes, fit for one line of a message. -/
def literal (s : String) : String :=
  String.ofList ('"' :: (s.toList.flatMap literalChar ++ ['"']))

end Rollout.Text

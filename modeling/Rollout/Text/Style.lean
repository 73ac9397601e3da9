/-
Coloured text for terminals.

A style is switched on before a text and off after it.  Where the text itself switches everything
off, the style is switched on again.
-/

namespace Rollout.Text

inductive Style where
  | yellow
  | red
  | bold
  | boldRed
  | boldGreen
  deriving DecidableEq, Repr, Inhabited

/-- The codes of a style. -/
def Style.codes : Style → String
  | yellow => "33"
  | red => "31"
  | bold => "1"
  | boldRed => "1;31"
  | boldGreen => "1;32"

/-- Switches every style off. -/
def resetCode : String := "\x1b[0m"

/-- A text in a style, when colours are wanted. -/
def Style.paint (s : Style) (color : Bool) (text : String) : String :=
  if color then
    let start := "\x1b[" ++ s.codes ++ "m"
    start ++ (resetCode ++ start).intercalate (text.splitOn resetCode) ++ resetCode
  else text

end Rollout.Text

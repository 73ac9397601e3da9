/-
YAML texts as cells: characters with their places.

Line ends have several spellings; a carriage return, a line feed, both in this order and the next
line character all become a line feed here, while the line and paragraph separators stay what they
are.  Every text ends with a cell that holds no character of the text, so there is always a cell to
look at.
-/
import Rollout.Yaml.Error

namespace Rollout.Yaml

/-- A character with its place.  The offset counts the bytes before it on its line. -/
structure Cell where
  char : Char
  line : Nat
  column : Nat
  offset : Nat
  deriving DecidableEq, Repr, Inhabited

/-- Stands behind the last character of a text. -/
def endMark : Char := '\x00'

/-- Characters that may stand in a text. -/
def isAllowed (c : Char) : Bool :=
  let n := c.toNat
  c == '\t' || c == '\n' || c == '\r' || (0x20 ≤ n && n ≤ 0x7e) || n == 0x85
    || (0xa0 ≤ n && n ≤ 0xd7ff) || (0xe000 ≤ n && n ≤ 0xfffd) || 0x10000 ≤ n

/-- Characters that end a line. -/
def isBreak (c : Char) : Bool :=
  c == '\r' || c == '\n' || c == '\u0085' || c == '\u2028' || c == '\u2029'

def isBlank (c : Char) : Bool := c == ' ' || c == '\t'

def isBreakOrEnd (c : Char) : Bool := isBreak c || c == endMark

def isBlankOrEnd (c : Char) : Bool := isBlank c || isBreakOrEnd c

/-- Letters, digits and the two marks that names are made of. -/
def isNameChar (c : Char) : Bool := c.isAlphanum || c == '_' || c == '-'

/-- The form that a line end is kept in. -/
def keptBreak (c : Char) : Char :=
  if c == '\u2028' || c == '\u2029' then c else '\n'

/-- The cells of the rest of a text from a place on. -/
def locate (line column offset : Nat) : List Char → List Cell
  | [] => [⟨endMark, line, column, offset⟩]
  | '\r' :: '\n' :: rest => ⟨'\n', line, column, offset⟩ :: locate (line + 1) 0 0 rest
  | c :: rest =>
    if isBreak c then ⟨keptBreak c, line, column, offset⟩ :: locate (line + 1) 0 0 rest
    else ⟨c, line, column, offset⟩ :: locate line (column + 1) (offset + c.utf8Size) rest

/-- The cells of a text whose characters are all allowed. -/
def cells (text : String) : Except Error (List Cell) :=
  if text.toList.all isAllowed then .ok (locate 0 0 0 text.toList)
  else .error .forbiddenCharacter

/-- The character at the front. -/
def charAt (cs : List Cell) : Char :=
  match cs with
  | [] => endMark
  | c :: _ => c.char

/-- The cell at the front. -/
def here (cs : List Cell) : Cell :=
  cs.headD ⟨endMark, 0, 0, 0⟩

/-- The characters at the front that satisfy a condition, and the cells after them. -/
def spanChars (p : Char → Bool) : List Cell → List Char × List Cell
  | [] => ([], [])
  | c :: rest =>
    if p c.char then
      let (taken, rest) := spanChars p rest
      (c.char :: taken, rest)
    else ([], c :: rest)

/-- The cells after the characters at the front that satisfy a condition. -/
def skipChars (p : Char → Bool) (cs : List Cell) : List Cell :=
  (spanChars p cs).2

/-- A document mark, three equal characters and a gap, stands at the front of a line here. -/
def isDocumentMark (mark : Char) (cs : List Cell) : Bool :=
  match cs with
  | a :: b :: c :: rest =>
    a.column == 0 && a.char == mark && b.char == mark && c.char == mark
      && isBlankOrEnd (charAt rest)
  | _ => false

def isAnyDocumentMark (cs : List Cell) : Bool :=
  isDocumentMark '-' cs || isDocumentMark '.' cs

/-! ### Line folding -/

/-- The blanks and line ends between two pieces of a text that may span lines. -/
structure Gap where
  /-- Blanks, newest first; those next to a line end do not count. -/
  blanks : List Char := []
  /-- A line has ended. -/
  broken : Bool := false
  /-- The first line end, unless it was escaped. -/
  first : Option Char := none
  /-- Further line ends, newest first. -/
  more : List Char := []
  deriving Repr, Inhabited

namespace Gap

/-- A blank. -/
def blank (g : Gap) (c : Char) : Gap :=
  if g.broken then g else { g with blanks := c :: g.blanks }

/-- A line end. -/
def lineEnd (g : Gap) (c : Char) : Gap :=
  if g.broken then { g with more := c :: g.more }
  else { blanks := [], broken := true, first := some c }

/-- A line end that is taken back by an escape. -/
def escaped : Gap := { broken := true }

/-- What a gap becomes inside a text, newest first: a single line end becomes a space, and of
several the first one goes. -/
def folded (g : Gap) : List Char :=
  if g.broken then
    match g.first with
    | some '\n' => if g.more.isEmpty then [' '] else g.more
    | some c => g.more ++ [c]
    | none => g.more
  else g.blanks

end Gap

end Rollout.Yaml

/-
The texts of scalars: plain, quoted and block ones.

Each reader starts behind the indicator, if there is one, and gives the text and the cells after
it.  A reader goes through the cells one by one and remembers the gap before the place it is at.
-/
import Rollout.Yaml.Source

namespace Rollout.Yaml

/-- How a scalar is written. -/
inductive Style where
  | plain
  | quoted
  | literal
  | folded
  deriving DecidableEq, Repr, Inhabited

/-- A text from its characters, newest first. -/
def ofReversed (cs : List Char) : String := String.ofList cs.reverse

/-! ### Quoted scalars -/

/-- The character that a one-letter escape stands for. -/
def simpleEscape? (c : Char) : Option Char :=
  match c with
  | '0' => some '\x00'
  | 'a' => some '\x07'
  | 'b' => some '\x08'
  | 't' | '\t' => some '\t'
  | 'n' => some '\n'
  | 'v' => some '\x0b'
  | 'f' => some '\x0c'
  | 'r' => some '\r'
  | 'e' => some '\x1b'
  | ' ' => some ' '
  | '"' => some '"'
  | '/' => some '/'
  | '\\' => some '\\'
  | 'N' => some '\u0085'
  | '_' => some '\u00a0'
  | 'L' => some '\u2028'
  | 'P' => some '\u2029'
  | _ => none

/-- How many hexadecimal digits follow the letter of an escape. -/
def escapeDigits? (c : Char) : Option Nat :=
  match c with
  | 'x' => some 2
  | 'u' => some 4
  | 'U' => some 8
  | _ => none

/-- The value of a hexadecimal digit. -/
def hexDigit? (c : Char) : Option Nat :=
  if '0' ≤ c && c ≤ '9' then some (c.toNat - '0'.toNat)
  else if 'a' ≤ c && c ≤ 'f' then some (c.toNat - 'a'.toNat + 10)
  else if 'A' ≤ c && c ≤ 'F' then some (c.toNat - 'A'.toNat + 10)
  else none

/-- The character of a code point. -/
def ofCodePoint (n : Nat) : Except Error Char :=
  if h : n.isValidChar then .ok (Char.ofNatAux n h) else .error .badEscape

/-- What a quoted reader is in the middle of. -/
inductive Escape where
  | none
  /-- Digits still to come, and the number so far. -/
  | hex (left : Nat) (value : Nat)
  deriving Repr, Inhabited

/-- Reads on in a single-quoted scalar, in which a quote is written twice. -/
def singleQuoted (text : List Char) (gap : Gap) : List Cell → Except Error (String × List Cell)
  | [] => .error .unclosedText
  | c :: rest =>
    if isBlank c.char then singleQuoted text (gap.blank c.char) rest
    else if isBreak c.char then singleQuoted text (gap.lineEnd c.char) rest
    else if c.char == endMark || isAnyDocumentMark (c :: rest) then .error .unclosedText
    else if c.char == '\'' then
      match rest with
      | d :: rest' =>
        if d.char == '\'' then singleQuoted ('\'' :: gap.folded ++ text) {} rest'
        else .ok (ofReversed (gap.folded ++ text), rest)
      | [] => .ok (ofReversed (gap.folded ++ text), rest)
    else singleQuoted (c.char :: gap.folded ++ text) {} rest

/-- Reads on in a double-quoted scalar, which has escapes. -/
def doubleQuoted (text : List Char) (gap : Gap) (escape : Escape) :
    List Cell → Except Error (String × List Cell)
  | [] => .error .unclosedText
  | c :: rest =>
    match escape with
    | .hex left value =>
      match hexDigit? c.char with
      | none => .error .badEscape
      | some d =>
        if left ≤ 1 then
          match ofCodePoint (value * 16 + d) with
          | .error e => .error e
          | .ok decoded => doubleQuoted (decoded :: text) {} .none rest
        else doubleQuoted text gap (.hex (left - 1) (value * 16 + d)) rest
    | .none =>
      if isBlank c.char then doubleQuoted text (gap.blank c.char) .none rest
      else if isBreak c.char then doubleQuoted text (gap.lineEnd c.char) .none rest
      else if c.char == endMark || isAnyDocumentMark (c :: rest) then .error .unclosedText
      else if c.char == '"' then .ok (ofReversed (gap.folded ++ text), rest)
      else if c.char == '\\' then
        match rest with
        | [] => .error .badEscape
        | d :: rest' =>
          if isBreak d.char then doubleQuoted (gap.folded ++ text) .escaped .none rest'
          else match simpleEscape? d.char, escapeDigits? d.char with
            | some decoded, _ => doubleQuoted (decoded :: gap.folded ++ text) {} .none rest'
            | none, some digits => doubleQuoted (gap.folded ++ text) {} (.hex digits 0) rest'
            | none, none => .error .badEscape
      else doubleQuoted (c.char :: gap.folded ++ text) {} .none rest

/-! ### Plain scalars -/

/-- Characters that end a plain scalar inside brackets. -/
def isFlowMark (c : Char) : Bool :=
  c == ',' || c == '[' || c == ']' || c == '\x7b' || c == '\x7d'

/-- A plain scalar as read: its text, whether a line ended behind it, and the cells after the gap
behind it. -/
structure Plain where
  text : String
  lineEnded : Bool
  rest : List Cell

/-- Reads on in a plain scalar.  `word` says that the last cell belonged to the text, `indent` is
the least column of a further line outside brackets. -/
def plain (inFlow : Bool) (indent : Nat) (text : List Char) (gap : Gap) (word : Bool) :
    List Cell → Except Error Plain
  | [] => .ok ⟨ofReversed text, gap.broken, []⟩
  | c :: rest =>
    let stop := Except.ok ⟨ofReversed text, gap.broken, c :: rest⟩
    if isBlank c.char then
      if gap.broken && c.column < indent && c.char == '\t' then .error .tabIndentation
      else plain inFlow indent text (gap.blank c.char) false rest
    else if isBreak c.char then plain inFlow indent text (gap.lineEnd c.char) false rest
    else if c.char == endMark then stop
    else if !word && (c.char == '#' || isAnyDocumentMark (c :: rest)
        || (!inFlow && gap.broken && c.column < indent)) then stop
    else if inFlow && c.char == ':' && (isFlowMark (charAt rest) || charAt rest == '?') then
      .error .unexpectedCharacter
    else if (c.char == ':' && isBlankOrEnd (charAt rest)) || (inFlow && isFlowMark c.char) then stop
    else plain inFlow indent (c.char :: gap.folded ++ text) {} true rest

/-! ### Block scalars -/

/-- What happens to the line ends behind a block scalar. -/
inductive Chomping where
  | strip
  | clip
  | keep
  deriving DecidableEq, Repr, Inhabited

/-- The header of a block scalar. -/
structure BlockHeader where
  chomping : Chomping := .clip
  /-- How much deeper than its parent the text stands, if that is said. -/
  increment : Option Nat := none
  deriving Repr, Inhabited

def chomping? (c : Char) : Option Chomping :=
  if c == '+' then some .keep else if c == '-' then some .strip else none

/-- The digit of an indentation indicator. -/
def increment? (c : Char) : Option Nat :=
  if c.isDigit then some (c.toNat - '0'.toNat) else none

/-- The indicators of a header, in either order. -/
def blockIndicators (cs : List Cell) : BlockHeader × List Cell :=
  match chomping? (charAt cs) with
  | some chomping =>
    match increment? (charAt (cs.drop 1)) with
    | some n => (⟨chomping, some n⟩, cs.drop 2)
    | none => (⟨chomping, none⟩, cs.drop 1)
  | none =>
    match increment? (charAt cs) with
    | some n =>
      match chomping? (charAt (cs.drop 1)) with
      | some chomping => (⟨chomping, some n⟩, cs.drop 2)
      | none => (⟨.clip, some n⟩, cs.drop 1)
    | none => ({}, cs)

/-- Passes over blanks and a comment up to the end of a line. -/
def restOfLine (cs : List Cell) (otherwise : Error) : Except Error (List Cell) :=
  let cs := skipChars isBlank cs
  let cs := if charAt cs == '#' then skipChars (!isBreakOrEnd ·) cs else cs
  if isBreak (charAt cs) then .ok (cs.drop 1)
  else if charAt cs == endMark then .ok cs
  else .error otherwise

/-- Reads the header of a block scalar with its line. -/
def blockHeader (cs : List Cell) : Except Error (BlockHeader × List Cell) := do
  let (header, cs) := blockIndicators cs
  if header.increment == some 0 then .error .badBlockHeader
  let cs ← restOfLine cs .badBlockHeader
  .ok (header, cs)

/-- A block scalar being read. -/
structure Block where
  text : List Char := []
  /-- The column of the text, once it is known. -/
  indent : Option Nat := none
  /-- The deepest blank line so far. -/
  deepest : Nat := 0
  /-- The line end behind the last line, if there is one. -/
  lastEnd : Option Char := none
  /-- The empty lines behind it, newest first. -/
  empty : List Char := []
  /-- The last line began with a blank. -/
  indented : Bool := false
  /-- Inside a line of the text. -/
  inLine : Bool := false
  deriving Repr, Inhabited

namespace Block

/-- A column before the text, as far as the column of the text is known. -/
def isBefore (b : Block) (column : Nat) : Bool :=
  match b.indent with
  | none => true
  | some n => column < n

/-- Begins a line with a character, after folding the line end before it in a folded scalar. -/
def beginLine (folds : Bool) (b : Block) (c : Char) : Block :=
  let joint :=
    if folds && b.lastEnd == some '\n' && !b.indented && !isBlank c then
      if b.empty.isEmpty then [' '] else []
    else b.lastEnd.toList
  { b with
    text := c :: b.empty ++ joint ++ b.text, lastEnd := none, empty := []
    indented := isBlank c, inLine := true }

/-- The whole text. -/
def finish (b : Block) (c : Chomping) : String :=
  ofReversed (match c with
    | .strip => b.text
    | .clip => b.lastEnd.toList ++ b.text
    | .keep => b.empty ++ b.lastEnd.toList ++ b.text)

end Block

/-- Reads on in a block scalar whose parent stands at a column, or at none when there is no
parent. -/
def block (folds : Bool) (chomping : Chomping) (parent : Int) (b : Block) :
    List Cell → Except Error (String × List Cell)
  | [] => .ok (b.finish chomping, [])
  | c :: rest =>
    if b.inLine then
      if isBreak c.char then
        block folds chomping parent { b with lastEnd := some c.char, inLine := false } rest
      else if c.char == endMark then .ok (b.finish chomping, c :: rest)
      else block folds chomping parent { b with text := c.char :: b.text } rest
    else if c.char == ' ' && b.isBefore c.column then block folds chomping parent b rest
    else if c.char == '\t' && b.isBefore c.column then .error .tabIndentation
    else
      let deepest := max b.deepest c.column
      if isBreak c.char then
        block folds chomping parent { b with deepest, empty := c.char :: b.empty } rest
      else
        let indent := b.indent.getD (max deepest (max (parent + 1).toNat 1))
        if c.column == indent && c.char != endMark then
          block folds chomping parent ({ b with indent := some indent }.beginLine folds c.char) rest
        else .ok (b.finish chomping, c :: rest)

/-- Reads a block scalar behind its indicator. -/
def blockScalar (folds : Bool) (parent : Int) (cs : List Cell) :
    Except Error (String × List Cell) := do
  let (header, cs) ← blockHeader cs
  let indent := header.increment.map fun n => if parent < 0 then n else parent.toNat + n
  block folds header.chomping parent { indent } cs

end Rollout.Yaml

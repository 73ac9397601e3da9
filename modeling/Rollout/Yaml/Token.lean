/-
The tokens of a YAML text.

Indentation becomes tokens of its own: a block collection has a start and an end like one in
brackets.  That something was a key shows only at the colon behind it, so the place where a key may
have begun is remembered and its token goes there later.

* `tokens` cuts a text into tokens;
* `Scanner.step` reads one of them.

Design notes: `KeyPlace` counts the tokens before it, and only the key of the innermost bracket is
ever used, so putting a token there leaves the places of the outer ones right.
-/
import Rollout.Yaml.Tag

namespace Rollout.Yaml

inductive Token where
  | directive (d : Directive)
  | documentStart
  | documentEnd
  | blockSequenceStart
  | blockMappingStart
  | blockEnd
  | flowSequenceStart
  | flowSequenceEnd
  | flowMappingStart
  | flowMappingEnd
  | blockEntry
  | flowEntry
  | key
  | value
  | reference (name : String)
  | anchor (name : String)
  | tag (t : TagName)
  | scalar (style : Style) (text : String)
  deriving DecidableEq, Repr, Inhabited

/-- A place where a key may have begun. -/
structure KeyPlace where
  /-- How many tokens stand before it. -/
  number : Nat
  cell : Cell
  /-- Nothing but a key can stand there. -/
  required : Bool
  deriving Repr, Inhabited

/-- The greatest number of bytes in a key. -/
def maxKey : Nat := 1024

structure Scanner where
  /-- The tokens so far, newest first. -/
  found : List Token := []
  /-- The column of the innermost block collection. -/
  indent : Int := -1
  /-- The columns of those around it. -/
  outer : List Int := []
  /-- A key may begin here. -/
  keyAllowed : Bool := true
  /-- Where a key may have begun, inside the innermost bracket. -/
  key : Option KeyPlace := none
  /-- The same for the brackets around it. -/
  brackets : List (Option KeyPlace) := []
  deriving Repr, Inhabited

namespace Scanner

def inFlow (s : Scanner) : Bool := !s.brackets.isEmpty

def emit (s : Scanner) (t : Token) : Scanner :=
  { s with found := t :: s.found }

/-- Puts a token behind the first so many. -/
def insertAt (s : Scanner) (number : Nat) (t : Token) : Scanner :=
  let newer := s.found.length - number
  { s with found := s.found.take newer ++ t :: s.found.drop newer }

/-- Passes over blanks, comments and line ends.  Tabs count as blanks where no key may begin. -/
def skipGap (inFlow keyAllowed inComment : Bool) : List Cell → Bool × List Cell
  | [] => (keyAllowed, [])
  | c :: rest =>
    if isBreak c.char then skipGap inFlow (keyAllowed || !inFlow) false rest
    else if c.char == endMark then (keyAllowed, c :: rest)
    else if inComment then skipGap inFlow keyAllowed true rest
    else if c.char == ' ' || (c.char == '\t' && (inFlow || !keyAllowed)) then
      skipGap inFlow keyAllowed false rest
    else if c.char == '#' then skipGap inFlow keyAllowed true rest
    else (keyAllowed, c :: rest)

/-- A key lies within one line and is not too long. -/
def isStale (at_ : Cell) (k : KeyPlace) : Bool :=
  k.cell.line < at_.line || k.cell.offset + maxKey < at_.offset

/-- Gives up one place where a key may have begun. -/
def dropStale (at_ : Cell) (k : Option KeyPlace) : Except Error (Option KeyPlace) :=
  match k with
  | none => .ok none
  | some k =>
    if isStale at_ k then
      if k.required then .error .missingColon else .ok none
    else .ok (some k)

/-- Gives up the places where no key can have begun any more. -/
def dropStaleKeys (s : Scanner) (at_ : Cell) : Except Error Scanner := do
  let brackets ← s.brackets.mapM (dropStale at_)
  let key ← dropStale at_ s.key
  .ok { s with brackets, key }

/-- Gives up the innermost place. -/
def dropKey (s : Scanner) : Except Error Scanner :=
  match s.key with
  | some k => if k.required then .error .missingColon else .ok { s with key := none }
  | none => .ok s

/-- Remembers that a key may begin here. -/
def saveKey (s : Scanner) (at_ : Cell) : Except Error Scanner :=
  if s.keyAllowed then do
    let required := !s.inFlow && s.indent == at_.column
    let s ← s.dropKey
    .ok { s with key := some ⟨s.found.length, at_, required⟩ }
  else .ok s

/-- Ends the block collections that stand to the right of a column. -/
def unrollFrom (column : Int) (s : Scanner) : List Int → Scanner
  | [] => s
  | i :: outer =>
    if column < s.indent then unrollFrom column { s.emit .blockEnd with indent := i, outer } outer
    else s

def unroll (s : Scanner) (column : Int) : Scanner :=
  if s.inFlow then s else unrollFrom column s s.outer

/-- Begins a block collection at a column, unless there is one; its token goes to a place or to the
end. -/
def roll (s : Scanner) (column : Nat) (number : Option Nat) (t : Token) : Scanner :=
  if s.inFlow then s
  else if s.indent < column then
    let s := { s with outer := s.indent :: s.outer, indent := column }
    match number with
    | some n => s.insertAt n t
    | none => s.emit t
  else s

/-! ### Single tokens -/

/-- Ends everything open before a directive or a document mark. -/
def topLevel (s : Scanner) : Except Error Scanner := do
  let s ← (s.unroll (-1)).dropKey
  .ok { s with keyAllowed := false }

def openBracket (s : Scanner) (at_ : Cell) (t : Token) : Except Error Scanner := do
  let s ← s.saveKey at_
  .ok { s.emit t with brackets := s.key :: s.brackets, key := none, keyAllowed := true }

def closeBracket (s : Scanner) (t : Token) : Except Error Scanner := do
  let s ← s.dropKey
  let s := match s.brackets with
    | k :: brackets => { s with key := k, brackets }
    | [] => s
  .ok { s.emit t with keyAllowed := false }

def flowEntry (s : Scanner) : Except Error Scanner := do
  let s ← s.dropKey
  .ok { s.emit .flowEntry with keyAllowed := true }

def blockEntry (s : Scanner) (at_ : Cell) : Except Error Scanner := do
  if !s.inFlow && !s.keyAllowed then .error .misplacedIndicator
  let s ← (s.roll at_.column none .blockSequenceStart).dropKey
  .ok { s.emit .blockEntry with keyAllowed := true }

def explicitKey (s : Scanner) (at_ : Cell) : Except Error Scanner := do
  if !s.inFlow && !s.keyAllowed then .error .misplacedIndicator
  let s ← (s.roll at_.column none .blockMappingStart).dropKey
  .ok { s.emit .key with keyAllowed := !s.inFlow }

def valueMark (s : Scanner) (at_ : Cell) : Except Error Scanner :=
  match s.key with
  | some k =>
    let s := (s.insertAt k.number .key).roll k.cell.column (some k.number) .blockMappingStart
    .ok { s.emit .value with key := none, keyAllowed := false }
  | none =>
    if !s.inFlow && !s.keyAllowed then .error .misplacedIndicator
    else
      let s := s.roll at_.column none .blockMappingStart
      .ok { s.emit .value with keyAllowed := !s.inFlow }

/-- Characters that may stand right behind the name of an anchor. -/
def endsAnchor (c : Char) : Bool :=
  isBlankOrEnd c || "?:,]\x7d%@\x60".toList.contains c

/-- Reads the name of an anchor or an alias. -/
def anchorName (cs : List Cell) : Except Error (String × List Cell) :=
  let (name, rest) := spanChars isNameChar cs
  if name.isEmpty || !endsAnchor (charAt rest) then .error .badAnchor
  else .ok (String.ofList name, rest)

/-- A token that may begin a key and ends the place for one. -/
def content (s : Scanner) (at_ : Cell) (t : Token) : Except Error Scanner := do
  let s ← s.saveKey at_
  .ok { s.emit t with keyAllowed := false }

/-- Characters that a plain scalar does not begin with, unless more is known. -/
def isIndicator (c : Char) : Bool :=
  "-?:,[]\x7b\x7d#&*!|>'\"%@\x60".toList.contains c

/-- A plain scalar begins here. -/
def beginsPlain (inFlow : Bool) (c next : Char) : Bool :=
  !(isBlankOrEnd c || isIndicator c) || (c == '-' && !isBlank next)
    || (!inFlow && (c == '?' || c == ':') && !isBlankOrEnd next)

def plainScalar (s : Scanner) (at_ : Cell) (cs : List Cell) :
    Except Error (Scanner × List Cell) := do
  let p ← plain s.inFlow (s.indent + 1).toNat [] {} false cs
  let s ← s.content at_ (.scalar .plain p.text)
  .ok ({ s with keyAllowed := p.lineEnded }, p.rest)

def blockText (s : Scanner) (folds : Bool) (rest : List Cell) :
    Except Error (Scanner × List Cell) := do
  let s ← s.dropKey
  let (text, rest) ← blockScalar folds s.indent rest
  .ok ({ s.emit (.scalar (if folds then .folded else .literal) text) with keyAllowed := true },
    rest)

/-- The scanner with what is left of the text. -/
def andRest (rest : List Cell) (s : Except Error Scanner) : Except Error (Scanner × List Cell) :=
  s.map (·, rest)

/-- Reads the token that begins at a cell. -/
def stepAt (s : Scanner) (c : Cell) (rest : List Cell) : Except Error (Scanner × List Cell) :=
  let next := charAt rest
  let apart := s.inFlow || isBlankOrEnd next
  if c.column == 0 && c.char == '%' then do
    let s ← s.topLevel
    let (d, rest) ← readDirective rest
    .ok (s.emit (.directive d), rest)
  else if isDocumentMark '-' (c :: rest) then
    andRest (rest.drop 2) (s.topLevel.map (·.emit .documentStart))
  else if isDocumentMark '.' (c :: rest) then
    andRest (rest.drop 2) (s.topLevel.map (·.emit .documentEnd))
  else if c.char == '[' then andRest rest (s.openBracket c .flowSequenceStart)
  else if c.char == '\x7b' then andRest rest (s.openBracket c .flowMappingStart)
  else if c.char == ']' then andRest rest (s.closeBracket .flowSequenceEnd)
  else if c.char == '\x7d' then andRest rest (s.closeBracket .flowMappingEnd)
  else if c.char == ',' then andRest rest s.flowEntry
  else if c.char == '-' && isBlankOrEnd next then andRest rest (s.blockEntry c)
  else if c.char == '?' && apart then andRest rest (s.explicitKey c)
  else if c.char == ':' && apart then andRest rest (s.valueMark c)
  else if c.char == '*' then do
    let (name, rest) ← anchorName rest
    andRest rest (s.content c (.reference name))
  else if c.char == '&' then do
    let (name, rest) ← anchorName rest
    andRest rest (s.content c (.anchor name))
  else if c.char == '!' then do
    let (t, rest) ← readTag rest
    let ended := isBlankOrEnd (charAt rest) || (s.inFlow && charAt rest == ',')
    if ended then andRest rest (s.content c (.tag t)) else .error .badTag
  else if c.char == '|' && !s.inFlow then s.blockText false rest
  else if c.char == '>' && !s.inFlow then s.blockText true rest
  else if c.char == '\'' then do
    let (text, rest) ← singleQuoted [] {} rest
    andRest rest (s.content c (.scalar .quoted text))
  else if c.char == '"' then do
    let (text, rest) ← doubleQuoted [] {} .none rest
    andRest rest (s.content c (.scalar .quoted text))
  else if beginsPlain s.inFlow c.char next then s.plainScalar c (c :: rest)
  else .error .unexpectedCharacter

/-- Reads tokens to the end of the text. -/
def scan (s : Scanner) (cs : List Cell) : Except Error (List Token) :=
  match skipGap s.inFlow s.keyAllowed false cs with
  | (_, []) => .ok s.found.reverse
  | (keyAllowed, c :: rest) =>
    match { s with keyAllowed }.dropStaleKeys c with
    | .error e => .error e
    | .ok s =>
      let s := s.unroll c.column
      if c.char == endMark then s.topLevel.map (·.found.reverse)
      else match s.stepAt c rest with
        | .error e => .error e
        | .ok (s, rest') =>
          if rest'.length < cs.length then scan s rest' else .error .unexpectedCharacter
termination_by cs.length

end Scanner

/-- The text without a byte order mark at its front, which still takes a column. -/
def withoutMark (cs : List Cell) : List Cell :=
  if charAt cs == '\ufeff' then cs.drop 1 else cs

/-- The tokens of a text. -/
def tokens (text : String) : Except Error (List Token) := do
  Scanner.scan {} (withoutMark (← cells text))

end Rollout.Yaml

/-
Words of shell scripts, and how a script is cut into words and operators.

`tokens?` reads a script character by character.  Quotes, parameters and nested scripts become
pieces of words; a nested script is kept as text and read when its output is needed.

Design notes: a quote or a nested script that is not closed makes the whole script unreadable, so
the reader's mode at the end decides whether there are tokens at all.
-/

namespace Rollout.Shell

/-- A part of a word. -/
inductive Piece where
  | text (s : String) (inQuotes : Bool)
  /-- A parameter: its name, and perhaps what stands in for it. -/
  | param (content : String) (inQuotes : Bool)
  /-- What a script writes. -/
  | output (script : String) (inQuotes : Bool)
  /-- The value of an expression. -/
  | value (expression : String) (inQuotes : Bool)
  deriving Inhabited, Repr

abbrev Word := List Piece

inductive Token where
  | word (w : Word)
  | op (s : String)
  /-- The arrow of a redirection, with the descriptor before it. -/
  | arrow (descriptor : Option Nat) (s : String)
  deriving Inhabited, Repr

def isNameChar (c : Char) : Bool := c.isAlphanum || c == '_'

def isNameStart (c : Char) : Bool := c.isAlpha || c == '_'

/-- Parameters whose name is one character. -/
def isSpecialParam (c : Char) : Bool := "@*#?$!-".toList.contains c || c.isDigit

/-- What a nested text stands in. -/
inductive Bracket where
  | braces
  | parens
  | ticks
  deriving DecidableEq, Repr, Inhabited

/-- A text in brackets that is being read. -/
structure Nested where
  bracket : Bracket
  inQuotes : Bool
  /-- How many brackets of its own are open. -/
  depth : Nat := 0
  /-- The quote that is open inside. -/
  quote : Option Char := none
  escaped : Bool := false
  text : String := ""
  deriving Inhabited

/-- Where the reader is inside a word. -/
inductive Mode where
  | normal
  | single
  | double
  /-- After a backslash. -/
  | escape (inQuotes : Bool)
  /-- After a dollar sign. -/
  | dollar (inQuotes : Bool)
  | param (inQuotes : Bool) (name : String)
  | nested (n : Nested)
  | comment
  deriving Inhabited

namespace Nested

/-- Adds a character. -/
def push (n : Nested) (c : Char) : Nested := { n with text := n.text.push c, escaped := false }

/-- The character opens, or closes, brackets of the same kind. -/
def opens (n : Nested) (c : Char) : Bool :=
  match n.bracket with
  | .braces => c == '\x7b'
  | .parens => c == '('
  | .ticks => false

def closes (n : Nested) (c : Char) : Bool :=
  match n.bracket with
  | .braces => c == '\x7d'
  | .parens => c == ')'
  | .ticks => c == '\x60'

/-- Reads a character that does not end the text. -/
def step (n : Nested) (c : Char) : Nested :=
  if n.escaped then
    if n.bracket == .ticks && "$\\\x60".toList.contains c then n.push c
    else { n with text := n.text.push '\\' }.push c
  else if c == '\\' && n.quote != some '\'' then { n with escaped := true }
  else if n.quote == some c then { n.push c with quote := none }
  else if n.quote.isNone && n.bracket != .ticks && (c == '\'' || c == '"') then
    { n.push c with quote := some c }
  else if n.quote.isNone && n.opens c then { n.push c with depth := n.depth + 1 }
  else if n.quote.isNone && n.closes c then { n.push c with depth := n.depth - 1 }
  else n.push c

/-- The character ends the text. -/
def isEndedBy (n : Nested) (c : Char) : Bool :=
  !n.escaped && n.quote.isNone && n.depth == 0 && n.closes c

/-- Two pairs of parentheses hold an expression. -/
def piece (n : Nested) : Piece :=
  match n.bracket with
  | .braces => .param n.text n.inQuotes
  | .ticks => .output n.text n.inQuotes
  | .parens =>
    match n.text.toList, n.text.toList.getLast? with
    | '(' :: rest, some ')' => .value (String.ofList rest.dropLast) n.inQuotes
    | _, _ => .output n.text n.inQuotes

end Nested

/-- A reader of characters: the word so far, its last piece so far, and the tokens before it. -/
structure Reader where
  mode : Mode := .normal
  piece : String := ""
  word : Option Word := none
  /-- The word had so many pieces when the open quote began. -/
  quotedFrom : Nat := 0
  tokens : List Token := []
  /-- The last character was part of an operator. -/
  afterOp : Bool := false

namespace Reader

def push (r : Reader) (c : Char) : Reader := { r with piece := r.piece.push c }

/-- Adds a piece to the current word. -/
def addPiece (r : Reader) (p : Piece) : Reader :=
  { r with word := some (r.word.getD [] ++ [p]), piece := "" }

/-- Ends the current piece, if there is anything in it. -/
def cut (r : Reader) (inQuotes : Bool) : Reader :=
  if r.piece.isEmpty then r else r.addPiece (.text r.piece inQuotes)

/-- Begins quoted text. -/
def openQuote (r : Reader) (mode : Mode) : Reader :=
  let r := r.cut false
  { r with mode, quotedFrom := (r.word.getD []).length }

/-- Ends quoted text; with nothing in it, it is still a part of the word. -/
def closeQuote (r : Reader) : Reader :=
  let r := { r with mode := .normal }
  if r.piece.isEmpty && r.quotedFrom < (r.word.getD []).length then r
  else r.addPiece (.text r.piece true)

def back (inQuotes : Bool) : Mode := if inQuotes then .double else .normal

/-- Adds a piece that is no text. -/
def insert (r : Reader) (inQuotes : Bool) (p : Piece) : Reader :=
  { (r.cut inQuotes).addPiece p with mode := back inQuotes }

/-- Ends the current word. -/
def endWord (r : Reader) : Reader :=
  let r := r.cut false
  match r.word with
  | some w => { r with word := none, tokens := r.tokens ++ [.word w] }
  | none => r

/-- Two characters that make one operator. -/
def pairs : List String := ["&&", "||", ";;"]

/-- Adds an operator; a number may stand right before an arrow. -/
def addOp (r : Reader) (c : Char) : Reader :=
  let add (ts : List Token) : Reader :=
    { r with piece := "", word := none, tokens := ts, afterOp := true }
  match r.afterOp, r.tokens.getLast? with
  | true, some (.arrow d s) =>
    if s.length == 1 && (c == '&' || String.singleton c == s) then
      add (r.tokens.dropLast ++ [.arrow d (s.push c)])
    else add (r.tokens ++ [.op c.toString])
  | true, some (.op s) =>
    if pairs.contains (s.push c) then add (r.tokens.dropLast ++ [.op (s.push c)])
    else if c == '<' || c == '>' then add (r.tokens ++ [.arrow none c.toString])
    else add (r.tokens ++ [.op c.toString])
  | _, _ =>
    if c == '<' || c == '>' then
      match r.word, r.piece.toNat? with
      | none, some d => add (r.tokens ++ [.arrow (some d) c.toString])
      | _, _ => add (r.endWord.tokens ++ [.arrow none c.toString])
    else add (r.endWord.tokens ++ [.op c.toString])

/-- Reads a character outside quotes. -/
def readPlain (r : Reader) (c : Char) : Reader :=
  if ";&|<>()\n".toList.contains c then r.addOp c
  else
    let r := { r with afterOp := false }
    match c with
    | '\'' => r.openQuote .single
    | '"' => r.openQuote .double
    | '\\' => { r with mode := .escape false }
    | '$' => { r with mode := .dollar false }
    | '\x60' => { r with mode := .nested { bracket := .ticks, inQuotes := false } }
    | ' ' | '\t' => r.endWord
    | '#' => if r.piece.isEmpty && r.word.isNone then { r with mode := .comment } else r.push c
    | c => r.push c

/-- Reads a character inside double quotes. -/
def readDouble (r : Reader) (c : Char) : Reader :=
  match c with
  | '"' => r.closeQuote
  | '\\' => { r with mode := .escape true }
  | '$' => { r with mode := .dollar true }
  | '\x60' => { r with mode := .nested { bracket := .ticks, inQuotes := true } }
  | c => r.push c

def readText (r : Reader) (inQuotes : Bool) (c : Char) : Reader :=
  let r := { r with mode := back inQuotes }
  if inQuotes then r.readDouble c else r.readPlain c

/-- Reads one character. -/
def read (r : Reader) (c : Char) : Reader :=
  match r.mode with
  | .normal => r.readPlain c
  | .double => r.readDouble c
  | .single => if c == '\'' then r.closeQuote else r.push c
  | .escape false =>
    if c == '\n' then { r with mode := .normal }
    else { (r.cut false).addPiece (.text c.toString true) with mode := .normal }
  | .escape true =>
    let r := { r with mode := .double }
    if c == '\n' then r
    else if "$\"\\\x60".toList.contains c then r.push c
    else (r.push '\\').push c
  | .dollar q =>
    if isSpecialParam c then r.insert q (.param c.toString q)
    else if isNameStart c then { r with mode := .param q c.toString }
    else if c == '\x7b' then { r with mode := .nested { bracket := .braces, inQuotes := q } }
    else if c == '(' then { r with mode := .nested { bracket := .parens, inQuotes := q } }
    else (r.push '$').readText q c
  | .param q name =>
    if isNameChar c then { r with mode := .param q (name.push c) }
    else (r.insert q (.param name q)).readText q c
  | .nested n =>
    if n.isEndedBy c then r.insert n.inQuotes n.piece else { r with mode := .nested (n.step c) }
  | .comment => if c == '\n' then { r with mode := .normal }.addOp c else r

/-- Ends a script; the error says what is missing. -/
def finish (r : Reader) : Except String (List Token) :=
  match r.mode with
  | .normal | .comment => .ok r.endWord.tokens
  | .param false name => .ok (r.insert false (.param name false)).endWord.tokens
  | .dollar false => .ok (r.push '$').endWord.tokens
  | .escape false => .ok (r.push '\\').endWord.tokens
  | .nested n =>
    match n.bracket with
    | .braces => .error "Missing '\x7d'"
    | .parens => .error "end of file unexpected (expecting \")\")"
    | .ticks => .error "EOF in backquote substitution"
  | .single | .double | .param true _ | .dollar true | .escape true =>
    .error "Unterminated quoted string"

end Reader

/-- The tokens of a script. -/
def tokens? (script : String) : Except String (List Token) :=
  (script.toList.foldl Reader.read {}).finish

end Rollout.Shell

/-
Patterns from their usual notation.

`Pattern.parse?` gives nothing for a text that is no pattern.  Look-around and back-references are
no part of the notation.

Design notes: one pass over the characters with a stack of open groups.  A construct of several
characters is read as a whole at its first one, and the reader then passes over the rest of it
(`Reader.skip`), so the pass is structural.
-/
import Rollout.Pattern.Basic

namespace Rollout.Pattern

/-- Switches that hold from where they are set to the end of the group. -/
structure Flags where
  anyCase : Bool := false
  lines : Bool := false
  dotAll : Bool := false
  spaced : Bool := false
  /-- Carriage returns end lines too. -/
  returns : Bool := false
  /-- Classes hold ASCII characters only, so nothing can be negated. -/
  ascii : Bool := false
  deriving Inhabited

/-- A set as it counts under some flags. -/
def Flags.fold (f : Flags) (s : CharSet) : CharSet :=
  if f.anyCase then .anyCase f.ascii s else s

/-- A character that may stand in a class. -/
def Flags.allowsInSet (f : Flags) (c : Char) : Bool := !f.ascii || c.toNat < 0x80

/-- A class, if it can be negated where it is. -/
def Flags.negate? (f : Flags) (negated : Bool) (s : CharSet) : Option CharSet :=
  if f.ascii && negated then none else some (s.negateIf negated)

/-- The value of some hexadecimal digits. -/
def hexNumber? (cs : List Char) : Option Nat :=
  if cs.isEmpty then none
  else cs.foldlM (fun n c =>
    if c.isDigit then some (n * 16 + (c.toNat - '0'.toNat))
    else if 'a' ≤ c.toLower && c.toLower ≤ 'f' then
      some (n * 16 + (c.toLower.toNat - 'a'.toNat + 10))
    else none) 0

def scalar? (n : Nat) : Option Char :=
  if n.isValidChar then some (Char.ofNat n) else none

/-- The greatest number of repetitions that can be written. -/
def maxCount : Nat := UInt32.size - 1

/-- The greatest number of steps that a pattern may expand to. -/
def maxSize : Nat := 300000

/-- A decimal number and the characters it takes, blanks around it included. -/
def decimal? (cs : List Char) : Option (Nat × Nat) :=
  let ws := cs.takeWhile Text.isBlank
  let ds := (cs.drop ws.length).takeWhile Char.isDigit
  let after := (cs.drop (ws.length + ds.length)).takeWhile Text.isBlank
  let n := ds.foldl (fun n c => n * 10 + (c.toNat - '0'.toNat)) 0
  if ds.isEmpty || maxCount < n then none else some (n, ws.length + ds.length + after.length)

/-! ### Escapes -/

/-- What an escape stands for. -/
inductive Escape where
  | char (c : Char)
  | set (s : CharSet)
  | anchor (a : Anchor)

/-- A hexadecimal escape after its letter: so many digits, or any number between braces. -/
def hexEscape? (width : Nat) (rest : List Char) : Option (Char × Nat) :=
  match rest with
  | '\x7b' :: body =>
    let ds := body.takeWhile (· != '\x7d')
    if ds.length == body.length then none
    else ((hexNumber? ds).bind scalar?).map (·, ds.length + 2)
  | rest =>
    if rest.length < width then none
    else ((hexNumber? (rest.take width)).bind scalar?).map (·, width)

/-- The byte of a hexadecimal escape without braces cannot stand for a character of its own. -/
def isByteEscape (rest : List Char) (c : Char) : Bool :=
  rest.head? != some '\x7b' && 0x80 ≤ c.toNat

/-- A property after its letter. -/
def propertyEscape? (f : Flags) (negated : Bool) (rest : List Char) : Option (CharSet × Nat) :=
  if f.ascii then none
  else match rest with
  | '\x7b' :: body =>
    let name := body.takeWhile (· != '\x7d')
    if name.length == body.length then none
    else
      let (negated, shown) := match name with
        | '^' :: more => (!negated, more)
        | name => (negated, name)
      (CharSet.property? (String.ofList shown)).map fun s =>
        ((f.fold s).negateIf negated, name.length + 2)
  | c :: _ => (CharSet.property? c.toString).map fun s => ((f.fold s).negateIf negated, 1)
  | [] => none

/-- A boundary after `b`, when it is one of the special kinds. -/
def boundary? (rest : List Char) : Option (WordEdge × Nat) :=
  match rest with
  | '\x7b' :: body =>
    let name := body.takeWhile (· != '\x7d')
    let n := name.length + 2
    match String.ofList name with
    | "start" => some (.wordStart, n)
    | "end" => some (.wordEnd, n)
    | "start-half" => some (.halfStart, n)
    | "end-half" => some (.halfEnd, n)
    | _ => none
  | _ => none

/-- The escape after a backslash, and how many characters it takes. -/
def escape? (f : Flags) (rest : List Char) : Option (Escape × Nat) :=
  let named (negated : Bool) (full ascii : CharSet) : Option (Escape × Nat) :=
    (f.negate? negated (if f.ascii then ascii else full)).map fun s => (.set s, 1)
  let edge (e : WordEdge) : Escape := .anchor (.word e f.ascii)
  match rest with
  | [] => none
  | c :: more =>
    match c with
    | 'd' => named false .decimal .asciiDecimal
    | 'D' => named true .decimal .asciiDecimal
    | 's' => named false .blank .asciiBlank
    | 'S' => named true .blank .asciiBlank
    | 'w' => named false .word .asciiWord
    | 'W' => named true .word .asciiWord
    | 'p' => (propertyEscape? f false more).map fun (s, n) => (.set s, n + 1)
    | 'P' => (propertyEscape? f true more).map fun (s, n) => (.set s, n + 1)
    | 'x' =>
      match hexEscape? 2 more with
      | some (c, n) => if f.ascii && isByteEscape more c then none else some (.char c, n + 1)
      | none => none
    | 'u' => (hexEscape? 4 more).map fun (c, n) => (.char c, n + 1)
    | 'U' => (hexEscape? 8 more).map fun (c, n) => (.char c, n + 1)
    | 'b' =>
      match boundary? more with
      | some (e, n) => some (edge e, n + 1)
      | none => some (edge .boundary, 1)
    | 'B' => some (edge .noBoundary, 1)
    | 'A' => some (.anchor .textStart, 1)
    | 'z' => some (.anchor .textEnd, 1)
    | '<' => some (edge .wordStart, 1)
    | '>' => some (edge .wordEnd, 1)
    | 'n' => some (.char '\n', 1)
    | 't' => some (.char '\t', 1)
    | 'r' => some (.char '\r', 1)
    | 'a' => some (.char '\x07', 1)
    | 'f' => some (.char '\x0c', 1)
    | 'v' => some (.char '\x0b', 1)
    | c => if c.toNat < 0x80 && !c.isAlphanum then some (.char c, 1) else none

/-! ### Bracketed sets -/

/-- What joins two sets inside brackets. -/
inductive Joint where
  | inter
  | diff
  | symmDiff

/-- An open bracket: what is on the left of the last joint, and the set so far. -/
structure Bracket where
  negated : Bool
  left : Option (CharSet × Joint) := none
  sofar : CharSet := .none

/-- The set of a bracket when it closes; both sides of a joint count as they do alone. -/
def Bracket.joined (f : Flags) (b : Bracket) : CharSet :=
  match b.left with
  | none => b.sofar
  | some (s, .inter) => .inter (f.fold s) (f.fold b.sofar)
  | some (s, .diff) => .diff (f.fold s) (f.fold b.sofar)
  | some (s, .symmDiff) => .symmDiff (f.fold s) (f.fold b.sofar)

def Bracket.add (b : Bracket) (s : CharSet) : Bracket :=
  { b with sofar := .union b.sofar s }

/-- A class such as `[:alpha:]`, after its first bracket, and whether it is negated. -/
def posix? (rest : List Char) : Option (CharSet × Bool × Nat) :=
  match rest with
  | ':' :: body =>
    let (negated, name) := match body with
      | '^' :: more => (true, more.takeWhile fun c => c != ':' && c != ']')
      | body => (false, body.takeWhile fun c => c != ':' && c != ']')
    let used := 1 + (if negated then 1 else 0) + name.length
    match rest.drop used with
    | ':' :: ']' :: _ =>
      (CharSet.ascii? (String.ofList name)).map (·, negated, used + 2)
    | _ => none
  | _ => none

/-- One end of a range, or a set; and how many characters it takes. -/
def bracketItem? (f : Flags) (c : Char) (rest : List Char) : Option (Escape × Nat) :=
  let item : Option (Escape × Nat) :=
    if c == '\\' then (escape? f rest).map fun (e, n) => (e, n + 1) else some (.char c, 1)
  match item with
  | some (.char c, n) => if f.allowsInSet c then some (.char c, n) else none
  | item => item

/-- What opens a bracket besides the bracket itself: a `^`, literal hyphens, a literal `]`. -/
def bracketStart (rest : List Char) : Bracket × Nat :=
  let (negated, n) := match rest with
    | '^' :: _ => (true, 1)
    | _ => (false, 0)
  let hyphens := ((rest.drop n).takeWhile (· == '-')).length
  let n := n + hyphens
  let b : Bracket := { negated, sofar := if hyphens == 0 then .none else .single '-' }
  match hyphens, rest.drop n with
  | 0, ']' :: _ => (b.add (.single ']'), n + 1)
  | _, _ => (b, n)

/-- A reader of bracketed sets: the innermost open bracket, and those around it. -/
structure BracketReader where
  skip : Nat := 0
  inner : Bracket
  outer : List Bracket := []

/-- Reads one item at a character: a range, a character, a set. -/
def BracketReader.item (f : Flags) (r : BracketReader) (c : Char) (rest : List Char) :
    Option BracketReader := do
  let (first, n) ← bracketItem? f c rest
  let after := (c :: rest).drop n
  match first, after with
  | .anchor _, _ => none
  | .set s, '-' :: d :: _ =>
    if d == ']' || d == '-' then some { r with inner := r.inner.add s, skip := n - 1 } else none
  | .set s, _ => some { r with inner := r.inner.add s, skip := n - 1 }
  | .char a, '-' :: d :: more =>
    if d == ']' || d == '-' then
      some { r with inner := r.inner.add (.single a), skip := n - 1 }
    else
      match ← bracketItem? f d more with
      | (.char b, m) =>
        if a ≤ b then some { r with inner := r.inner.add (.range a b), skip := n + m }
        else none
      | _ => none
  | .char a, _ => some { r with inner := r.inner.add (.single a), skip := n - 1 }

/-- Closes the innermost bracket. -/
def BracketReader.close (f : Flags) (r : BracketReader) : Option (CharSet ⊕ BracketReader) := do
  let s ← f.negate? r.inner.negated (f.fold (r.inner.joined f))
  match r.outer with
  | [] => some (.inl s)
  | b :: outer => some (.inr { inner := b.add s, outer := outer })

/-- Joins what comes to what was read. -/
def BracketReader.joint (f : Flags) (r : BracketReader) (j : Joint) : BracketReader :=
  { r with inner := ⟨r.inner.negated, some (r.inner.joined f, j), .none⟩, skip := 1 }

/-- Reads a bracketed set after its opening bracket; gives the characters it takes. -/
def readBracket (flags : Flags) (read : Nat) (r : BracketReader) :
    List Char → Option (CharSet × Nat)
  | [] => none
  | c :: rest =>
    match r.skip with
    | n + 1 => readBracket flags (read + 1) { r with skip := n } rest
    | 0 =>
      if flags.spaced && Text.isBlank c then readBracket flags (read + 1) r rest
      else match c, rest.head? with
        | ']', _ =>
          match r.close flags with
          | none => none
          | some (.inl s) => some (s, read + 1)
          | some (.inr r) => readBracket flags (read + 1) r rest
        | '[', next =>
          match posix? rest with
          | some (s, negated, n) =>
            match flags.negate? negated (flags.fold s) with
            | none => none
            | some s =>
              readBracket flags (read + 1) { r with inner := r.inner.add s, skip := n } rest
          | none =>
            let (b, n) := bracketStart rest
            if next.isNone then none
            else readBracket flags (read + 1)
              { inner := b, outer := r.inner :: r.outer, skip := n } rest
        | '&', some '&' => readBracket flags (read + 1) (r.joint flags .inter) rest
        | '-', some '-' => readBracket flags (read + 1) (r.joint flags .diff) rest
        | '~', some '~' => readBracket flags (read + 1) (r.joint flags .symmDiff) rest
        | c, _ =>
          match r.item flags c rest with
          | some r => readBracket flags (read + 1) r rest
          | none => none

/-! ### Groups -/

/-- An open group: the flags to go back to, the alternatives read, and the items of the last one,
newest first.  A place where flags were set is an item that cannot be repeated. -/
structure Group where
  restore : Flags
  alternatives : Option Pattern := none
  items : List (Option Pattern) := []

/-- The items of an alternative in order. -/
def sequence (items : List (Option Pattern)) : Pattern :=
  (items.filterMap id).foldl (fun acc p => match acc with
    | .empty => p
    | acc => .seq p acc) .empty

/-- Everything read in a group. -/
def Group.whole (g : Group) : Pattern :=
  match g.alternatives with
  | none => sequence g.items
  | some p => .alt p (sequence g.items)

/-- How many steps a pattern expands to. -/
def size : Pattern → Nat
  | .empty | .chars _ | .anchor _ => 1
  | .seq p q | .alt p q => p.size + q.size
  | .star p => p.size + 1
  | .times p least more => p.size * (least + more.getD 1) + 1

structure Reader where
  skip : Nat := 0
  flags : Flags := {}
  inner : Group := { restore := {} }
  outer : List Group := []
  names : List String := []

namespace Reader

def add (r : Reader) (p : Pattern) : Reader :=
  { r with inner := { r.inner with items := some p :: r.inner.items } }

/-- Adds one character. -/
def addChar (r : Reader) (c : Char) : Option Reader :=
  if r.flags.anyCase && !r.flags.allowsInSet c then none
  else some (r.add (.chars (r.flags.fold (.single c))))

/-- The characters that a dot stands for: any, or those that end no line. -/
def dot? (f : Flags) : Option CharSet :=
  if f.ascii then none
  else if f.dotAll then some .all
  else if f.returns then some (.compl (.union (.single '\r') (.single '\n')))
  else some (.compl (.single '\n'))

/-- What stands for the start of a text, or of a line. -/
def startAnchor (f : Flags) : Anchor :=
  if !f.lines then .textStart else if f.returns then .returnStart else .lineStart

/-- What stands for the end of a text, or of a line. -/
def endAnchor (f : Flags) : Anchor :=
  if !f.lines then .textEnd else if f.returns then .returnEnd else .lineEnd

/-- Repeats the last item. -/
def repeatLast (r : Reader) (f : Pattern → Pattern) : Option Reader :=
  match r.inner.items with
  | some .empty :: _ | none :: _ | [] => none
  | some p :: items => some { r with inner := { r.inner with items := some (f p) :: items } }

/-- Opens a group. -/
def openGroup (r : Reader) (flags : Flags) (used : Nat) : Reader :=
  { r with
    outer := r.inner :: r.outer
    inner := { restore := r.flags }
    flags := flags
    skip := used }

/-- Closes a group.  An empty group is an item all the same. -/
def closeGroup (r : Reader) : Option Reader :=
  match r.outer with
  | [] => none
  | g :: outer =>
    let p := match r.inner.whole with
      | .empty => .times .empty 1 (some 0)
      | p => p
    some { r with
      inner := { g with items := some p :: g.items }, outer := outer, flags := r.inner.restore }

def bar (r : Reader) : Reader :=
  { r with inner := { r.inner with alternatives := some r.inner.whole, items := [] } }

/-- The name of a group may hold letters, digits, dots, brackets and underscores. -/
def isGroupName (cs : List Char) : Bool :=
  match cs with
  | [] => false
  | c :: rest =>
    let isFirst (c : Char) := c == '_' || CharSet.mem (.categories [.upperLetter, .lowerLetter,
      .titleLetter, .modifierLetter, .otherLetter, .letterNumber]) c
    isFirst c && rest.all fun c => isFirst c || c.isDigit || c == '.' || c == '[' || c == ']'

/-- Reads the flags between `(?` and `:` or `)`. -/
def readFlags (flags : Flags) (on : Bool) (seen : List Char) :
    List Char → Option (Flags × Nat × Bool)
  | [] => none
  | c :: rest =>
    let continueWith (flags : Flags) (on : Bool) :=
      if seen.contains c then none
      else (readFlags flags on (c :: seen) rest).map fun (f, n, isGroup) => (f, n + 1, isGroup)
    match c with
    | ':' => if seen.head? == some '-' then none else some (flags, 1, true)
    | ')' => if seen.head? == some '-' || seen.isEmpty then none else some (flags, 1, false)
    | '-' => continueWith flags false
    | 'i' => continueWith { flags with anyCase := on } on
    | 'm' => continueWith { flags with lines := on } on
    | 's' => continueWith { flags with dotAll := on } on
    | 'x' => continueWith { flags with spaced := on } on
    | 'R' => continueWith { flags with returns := on } on
    | 'u' => continueWith { flags with ascii := !on } on
    | 'U' => continueWith flags on
    | _ => none

/-- Opens a group whose name follows. -/
def openNamed (r : Reader) (used : Nat) (rest : List Char) : Option Reader :=
  let name := rest.takeWhile (· != '>')
  let text := String.ofList name
  if name.length == rest.length || !isGroupName name || r.names.contains text then none
  else some { r.openGroup r.flags (used + name.length + 1) with names := text :: r.names }

/-- Reads what stands after an opening parenthesis. -/
def group (r : Reader) (rest : List Char) : Option Reader :=
  match rest with
  | '?' :: 'P' :: '<' :: more => r.openNamed 3 more
  | '?' :: '<' :: '=' :: _ => none
  | '?' :: '<' :: '!' :: _ => none
  | '?' :: '<' :: more => r.openNamed 2 more
  | '?' :: more =>
    match readFlags r.flags true [] more with
    | none => none
    | some (flags, n, true) => some (r.openGroup flags (n + 1))
    | some (flags, n, false) =>
      some { r with
        flags := flags, skip := n + 1, inner := { r.inner with items := none :: r.inner.items } }
  | _ => some (r.openGroup r.flags 0)

/-- Passes over the mark that makes a repetition lazy. -/
def passLazy (r : Reader) (used : Nat) (after : List Char) : Reader :=
  match after with
  | '?' :: _ => { r with skip := used + 1 }
  | _ => { r with skip := used }

/-- A repetition between braces, after the opening one: bounds and characters taken. -/
def counts? (rest : List Char) : Option (Nat × Option Nat × Nat) := do
  let (least, n) ← decimal? rest
  match rest.drop n with
  | '\x7d' :: _ => some (least, some 0, n + 1)
  | ',' :: more =>
    let ws := (more.takeWhile Text.isBlank).length
    match more.drop ws with
    | '\x7d' :: _ => some (least, none, n + ws + 2)
    | _ =>
      let (most, m) ← decimal? more
      match more.drop m with
      | '\x7d' :: _ =>
        if least ≤ most then some (least, some (most - least), n + m + 2) else none
      | _ => none
  | _ => none

/-- Reads one character with those after it at hand. -/
def readChar (r : Reader) (c : Char) (rest : List Char) : Option Reader :=
  match c with
  | '(' => r.group rest
  | ')' => r.closeGroup
  | '|' => some r.bar
  | '[' => do
    let (b, n) := bracketStart rest
    let (s, used) ← readBracket r.flags 0 { inner := b, skip := n } rest
    some { r.add (.chars s) with skip := used }
  | '*' => (r.repeatLast .star).map (·.passLazy 0 rest)
  | '+' => (r.repeatLast fun p => .times p 1 none).map (·.passLazy 0 rest)
  | '?' => (r.repeatLast fun p => .times p 0 (some 1)).map (·.passLazy 0 rest)
  | '\x7b' => do
    let (least, more, used) ← counts? rest
    let r ← r.repeatLast fun p => .times p least more
    some (r.passLazy used (rest.drop used))
  | '.' => (dot? r.flags).map fun s => r.add (.chars s)
  | '^' => some (r.add (.anchor (startAnchor r.flags)))
  | '$' => some (r.add (.anchor (endAnchor r.flags)))
  | '\\' => do
    match ← escape? r.flags rest with
    | (.char c, n) => some { ← r.addChar c with skip := n }
    | (.set s, n) => some { r.add (.chars s) with skip := n }
    | (.anchor a, n) => some { r.add (.anchor a) with skip := n }
  | c =>
    if r.flags.spaced && Text.isBlank c then some r
    else if r.flags.spaced && c == '#' then
      some { r with skip := (rest.takeWhile (· != '\n')).length }
    else r.addChar c

/-- Reads all characters. -/
def readAll (r : Reader) : List Char → Option Reader
  | [] => some r
  | c :: rest =>
    match r.skip with
    | n + 1 => readAll { r with skip := n } rest
    | 0 =>
      match r.readChar c rest with
      | some r => readAll r rest
      | none => none

end Reader

/-- The pattern that a text spells, if it spells one. -/
def parse? (s : String) : Option Pattern := do
  let r ← Reader.readAll {} s.toList
  if r.outer.isEmpty && r.inner.whole.size ≤ maxSize then some r.inner.whole else none

end Rollout.Pattern

/-
Patterns and what they match.

A pattern is a regular expression with anchors.  `Pattern.isMatch` says whether some stretch of a
text matches it; which stretch does not matter, so neither does greed.

Design notes: matching works on sets of positions.  `step` takes the positions at which a match
may begin to those at which it may end, so every pattern is a map on sets of positions and a
repetition is the closure of one.
-/
import Rollout.Pattern.CharSet

namespace Rollout

/-- How the edge of a word lies at a place. -/
inductive WordEdge where
  | boundary
  | noBoundary
  | wordStart
  | wordEnd
  | halfStart
  | halfEnd
  deriving DecidableEq, Repr, Inhabited

/-- An edge is what stands before it and what stands behind it: parts of words or not. -/
def WordEdge.holds (e : WordEdge) (before after : Bool) : Bool :=
  match e with
  | .boundary => before != after
  | .noBoundary => before == after
  | .wordStart => !before && after
  | .wordEnd => before && !after
  | .halfStart => !before
  | .halfEnd => !after

/-- A place in a text that an anchor asks for. -/
inductive Anchor where
  | textStart
  | textEnd
  | lineStart
  | lineEnd
  /-- As `lineStart`, where carriage returns end lines too, a pair of both ends only one. -/
  | returnStart
  /-- As `lineEnd`, where carriage returns end lines too. -/
  | returnEnd
  /-- The edge of a word; words may be of ASCII characters only. -/
  | word (edge : WordEdge) (ascii : Bool)
  deriving DecidableEq, Repr, Inhabited

inductive Pattern where
  | empty
  | chars (s : CharSet)
  | anchor (a : Anchor)
  | seq (p q : Pattern)
  | alt (p q : Pattern)
  | star (p : Pattern)
  /-- So many times at least, and so many times more if there is an upper bound. -/
  | times (p : Pattern) (least : Nat) (more : Option Nat)
  deriving Inhabited, Repr

namespace Pattern

/-- There is a character of a set at a position. -/
def charAt (text : Array Char) (s : CharSet) (i : Nat) : Bool :=
  (text[i]?).any s.mem

/-- There is a character of a set before a position. -/
def charBefore (text : Array Char) (s : CharSet) (i : Nat) : Bool :=
  0 < i && charAt text s (i - 1)

def lineFeed : CharSet := .single '\n'

def carriageReturn : CharSet := .single '\r'

/-- An anchor holds at a position. -/
def holdsAt (text : Array Char) (a : Anchor) (i : Nat) : Bool :=
  match a with
  | .textStart => i == 0
  | .textEnd => i == text.size
  | .lineStart => i == 0 || charBefore text lineFeed i
  | .lineEnd => i == text.size || charAt text lineFeed i
  | .returnStart => i == 0 || charBefore text lineFeed i
      || (charBefore text carriageReturn i && !charAt text lineFeed i)
  | .returnEnd => i == text.size || charAt text carriageReturn i
      || (charAt text lineFeed i && !charBefore text carriageReturn i)
  | .word e ascii =>
    let s := if ascii then CharSet.asciiWord else .word
    e.holds (charBefore text s i) (charAt text s i)

/-- Both sets of positions. -/
def join (ps qs : List Nat) : List Nat :=
  ps ++ qs.filter (!ps.contains ·)

/-- All positions reached in any number of rounds, at most `n`. -/
def closure (f : List Nat → List Nat) : Nat → List Nat → List Nat
  | 0, ps => ps
  | n + 1, ps =>
    let next := f ps
    if next.all ps.contains then ps else closure f n (join ps next)

/-- Applies a map so many times. -/
def applyTimes (f : List Nat → List Nat) : Nat → List Nat → List Nat
  | 0, ps => ps
  | n + 1, ps => if ps.isEmpty then [] else applyTimes f n (f ps)

/-- Where matches that begin at some positions may end. -/
def step (text : Array Char) : Pattern → List Nat → List Nat
  | empty, ps => ps
  | chars s, ps => ps.filterMap fun i => if (text[i]?).any s.mem then some (i + 1) else none
  | anchor a, ps => ps.filter (holdsAt text a)
  | seq p q, ps => q.step text (p.step text ps)
  | alt p q, ps => join (p.step text ps) (q.step text ps)
  | star p, ps => closure (p.step text) (text.size + 1) ps
  | times p least more, ps =>
    let reached := applyTimes (p.step text) least ps
    match more with
    | some n => closure (p.step text) (min n (text.size + 1)) reached
    | none => closure (p.step text) (text.size + 1) reached

/-- Some stretch of the text matches. -/
def isMatch (p : Pattern) (s : String) : Bool :=
  let text := s.toList.toArray
  !(p.step text (List.range (text.size + 1))).isEmpty

end Pattern

end Rollout

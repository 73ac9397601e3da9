/-
Patterns of shell scripts: a star for any text, a question mark for any character, and sets.

Characters that are quoted stand for themselves, so a pattern is read from parts of which each is
quoted or not.
-/

namespace Rollout.Shell.Glob

inductive Item where
  | char (c : Char)
  | any
  | star
  /-- One of the characters in these ranges, or one that is in none of them. -/
  | oneOf (negated : Bool) (ranges : List (Char × Char))
  deriving DecidableEq, Repr, Inhabited

/-- The ranges of a set. -/
def ranges : List Char → List (Char × Char)
  | a :: '-' :: b :: rest => (a, b) :: ranges rest
  | a :: rest => (a, a) :: ranges rest
  | [] => []

/-- The content of a set: the first character never closes it. -/
def setContent : List Char → Option (List Char × List Char)
  | [] => none
  | first :: rest =>
    let more := rest.takeWhile (· != ']')
    if more.length < rest.length then some (first :: more, rest.drop (more.length + 1)) else none

/-- The items of unquoted text; the first argument bounds the reading. -/
def ofChars : Nat → List Char → List Item
  | 0, _ | _, [] => []
  | fuel + 1, '*' :: rest => .star :: ofChars fuel rest
  | fuel + 1, '?' :: rest => .any :: ofChars fuel rest
  | fuel + 1, '[' :: rest =>
    let negated := rest.head? == some '!'
    match setContent (if negated then rest.drop 1 else rest) with
    | some (set, rest) => .oneOf negated (ranges set) :: ofChars fuel rest
    | none => .char '[' :: ofChars fuel rest
  | fuel + 1, c :: rest => .char c :: ofChars fuel rest

/-- The items of a part. -/
def ofPart (s : String) (quoted : Bool) : List Item :=
  if quoted then s.toList.map .char else ofChars (s.length + 1) s.toList

/-- Every rest of a list, from the whole to nothing. -/
def rests : List Char → List (List Char)
  | [] => [[]]
  | c :: cs => (c :: cs) :: rests cs

/-- A pattern fits a whole text. -/
def fits : List Item → List Char → Bool
  | [], cs => cs.isEmpty
  | .star :: items, cs => (rests cs).any (fits items)
  | .any :: items, _ :: cs => fits items cs
  | .char a :: items, c :: cs => a == c && fits items cs
  | .oneOf negated rs :: items, c :: cs =>
    (rs.any (fun (a, b) => a ≤ c && c ≤ b)) != negated && fits items cs
  | _, [] => false

/-- Removes what a pattern fits at the front: the shortest such text, or the longest. -/
def dropFront (longest : Bool) (items : List Item) (cs : List Char) : List Char :=
  let cuts := List.range (cs.length + 1)
  match (if longest then cuts.reverse else cuts).find? (fun n => fits items (cs.take n)) with
  | some n => cs.drop n
  | none => cs

/-- Removes what a pattern fits at the back. -/
def dropBack (longest : Bool) (items : List Item) (cs : List Char) : List Char :=
  let cuts := List.range (cs.length + 1)
  match (if longest then cuts else cuts.reverse).find? (fun n => fits items (cs.drop n)) with
  | some n => cs.take n
  | none => cs

end Rollout.Shell.Glob

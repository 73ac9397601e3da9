/-
Expressions of shell scripts.

`evaluate?` reads and computes one in a single pass over its signs: each level of operators takes
the tighter level first.  Numbers have 64 bits, and a quotient is cut off toward zero.
-/
import Rollout.Shell.Word

namespace Rollout.Shell.Arithmetic

inductive Sign where
  | number (n : Int)
  | name (s : String)
  | op (s : String)
  deriving DecidableEq, Repr, Inhabited

/-- Operators of two characters. -/
def pairs : List String := ["==", "!=", "<=", ">=", "&&", "||", "<<", ">>"]

/-- Adds a character to the signs read so far, the latest first. -/
def addChar (signs : List Sign) (apart : Bool) (c : Char) : List Sign :=
  match apart, signs with
  | false, .number n :: rest =>
    if c.isDigit then .number (n * 10 + (c.toNat - '0'.toNat : Nat)) :: rest
    else .op c.toString :: signs
  | false, .name s :: rest =>
    if isNameChar c then .name (s.push c) :: rest else .op c.toString :: signs
  | false, .op s :: rest =>
    if pairs.contains (s.push c) then .op (s.push c) :: rest else first c :: signs
  | _, _ => first c :: signs
where
  first (c : Char) : Sign :=
    if c.isDigit then .number (c.toNat - '0'.toNat : Nat)
    else if isNameStart c then .name c.toString
    else .op c.toString

/-- The signs of an expression. -/
def signs (text : String) : List Sign :=
  (text.toList.foldl (fun (acc : List Sign × Bool) c =>
    if c == ' ' || c == '\t' || c == '\n' then (acc.1, true)
    else if c == '$' then acc
    else (addChar acc.1 acc.2 c, false)) ([], true)).1.reverse

/-- A number cut to 64 bits. -/
def wrap (n : Int) : Int := n.bmod (Nat.pow 2 64)

def ofBool (b : Bool) : Int := if b then 1 else 0

/-- The operators of two operands, the loosest first. -/
def levels : List (List String) :=
  [["||"], ["&&"], ["|"], ["^"], ["&"], ["==", "!="], ["<", "<=", ">", ">="], ["<<", ">>"],
    ["+", "-"], ["*", "/", "%"]]

/-- Applies an operator; there is no quotient by zero. -/
def compute? (op : String) (a b : Int) : Option Int :=
  match op with
  | "||" => some (ofBool (a != 0 || b != 0))
  | "&&" => some (ofBool (a != 0 && b != 0))
  | "==" => some (ofBool (a == b))
  | "!=" => some (ofBool (a != b))
  | "<" => some (ofBool (a < b))
  | "<=" => some (ofBool (a ≤ b))
  | ">" => some (ofBool (b < a))
  | ">=" => some (ofBool (b ≤ a))
  | "|" => some ((a.toInt64 ||| b.toInt64).toInt)
  | "^" => some ((a.toInt64 ^^^ b.toInt64).toInt)
  | "&" => some ((a.toInt64 &&& b.toInt64).toInt)
  | "<<" => some ((a.toInt64 <<< b.toInt64).toInt)
  | ">>" => some ((a.toInt64 >>> b.toInt64).toInt)
  | "+" => some (wrap (a + b))
  | "-" => some (wrap (a - b))
  | "*" => some (wrap (a * b))
  | "/" => if b == 0 then none else some (wrap (a.tdiv b))
  | "%" => if b == 0 then none else some (a.tmod b)
  | _ => none

mutual

/-- A sign, a group or a changed sign. -/
def primary (lookup : String → Int) : Nat → List Sign → Option (Int × List Sign)
  | 0, _ => none
  | depth + 1, ss =>
    match ss with
    | .number n :: rest => some (wrap n, rest)
    | .name s :: rest => some (lookup s, rest)
    | .op "-" :: rest => (primary lookup depth rest).map fun (n, rest) => (wrap (-n), rest)
    | .op "+" :: rest => primary lookup depth rest
    | .op "!" :: rest => (primary lookup depth rest).map fun (n, rest) => (ofBool (n == 0), rest)
    | .op "~" :: rest => (primary lookup depth rest).map fun (n, rest) => (-n - 1, rest)
    | .op "(" :: rest =>
      match operators lookup depth levels rest with
      | some (n, .op ")" :: rest) => some (n, rest)
      | _ => none
    | _ => none

/-- Operands of the tightest level that is left, joined by the operators of the others. -/
def operators (lookup : String → Int) :
    Nat → List (List String) → List Sign → Option (Int × List Sign)
  | 0, _, _ => none
  | depth + 1, [], ss => primary lookup depth ss
  | depth + 1, level :: tighter, ss =>
    match operators lookup depth tighter ss with
    | some (a, rest) => moreOperands lookup depth level tighter a rest
    | none => none

/-- The further operands of a level, from left to right. -/
def moreOperands (lookup : String → Int) :
    Nat → List String → List (List String) → Int → List Sign → Option (Int × List Sign)
  | 0, _, _, _, _ => none
  | depth + 1, level, tighter, a, ss =>
    match ss with
    | .op o :: rest =>
      if level.contains o then
        match operators lookup depth tighter rest with
        | some (b, rest) =>
          (compute? o a b).bind fun c => moreOperands lookup depth level tighter c rest
        | none => none
      else some (a, ss)
    | ss => some (a, ss)

end

/-- The value of an expression. -/
def evaluate? (lookup : String → Int) (text : String) : Option Int :=
  let ss := signs text
  if ss.isEmpty then some 0
  else match operators lookup (16 * ss.length + 16) levels ss with
    | some (n, []) => some n
    | _ => none

end Rollout.Shell.Arithmetic

/-
What plain scalars mean.

A plain scalar may be empty or spell a null, a boolean, an integer or a floating point number;
otherwise it is a text.  Integers are decimal, or have `0x`, `0o` or `0b` in front.  Leading zeros
make a decimal number a text.
-/
import Rollout.Decimal.Power
import Rollout.Yaml.Scalar

namespace Rollout.Yaml

def isNullWord (s : String) : Bool :=
  s == "null" || s == "Null" || s == "NULL" || s == "~"

def boolWord? (s : String) : Option Bool :=
  match s with
  | "true" | "True" | "TRUE" => some true
  | "false" | "False" | "FALSE" => some false
  | _ => none

/-! ### Integers -/

/-- The value of a digit in a base of at most sixteen. -/
def digitIn? (base : Nat) (c : Char) : Option Nat :=
  match hexDigit? c with
  | some d => if d < base then some d else none
  | none => none

/-- The number that digits spell in a base; there is at least one. -/
def numberIn? (base : Nat) (cs : List Char) : Option Nat :=
  if cs.isEmpty then none
  else (cs.mapM (digitIn? base)).map (·.foldl (fun n d => n * base + d) 0)

/-- The digits behind the marker of a base. -/
def based? : List Char → Option (Nat × List Char)
  | '0' :: 'x' :: rest => some (16, rest)
  | '0' :: 'o' :: rest => some (8, rest)
  | '0' :: 'b' :: rest => some (2, rest)
  | _ => none

/-- Digits with a zero in front. -/
def hasLeadingZero (cs : List Char) : Bool :=
  1 < cs.length && cs.head? == some '0' && cs.all Char.isDigit

/-- The number that digits spell, with the marker of a base or without. -/
def magnitude? (cs : List Char) : Option Nat :=
  match based? cs with
  | some (base, digits) => numberIn? base digits
  | none => if hasLeadingZero cs then none else numberIn? 10 cs

/-- The integer that a scalar spells. -/
def integer? (s : String) : Option Int :=
  match s.toList with
  | '+' :: cs => (magnitude? cs).map Int.ofNat
  | '-' :: cs => (magnitude? cs).map fun n => -Int.ofNat n
  | cs => (magnitude? cs).map Int.ofNat

/-- A scalar that spells a number without a minus sign. -/
def natural? (s : String) : Option Nat :=
  match s.toList with
  | '-' :: _ => none
  | _ => (integer? s).map Int.toNat

/-! ### Floating point numbers -/

/-- A decimal as written: its digits as one number, how many of them follow the point, and the
exponent. -/
structure DecimalText where
  digits : List Nat
  places : Nat
  exponent : Int
  deriving Repr

/-- Splits digits off the front. -/
def spanDigits (cs : List Char) : List Nat × List Char :=
  ((cs.takeWhile Char.isDigit).map fun c => c.toNat - '0'.toNat, cs.dropWhile Char.isDigit)

/-- The exponent behind the letter. -/
def exponent? (cs : List Char) : Option Int :=
  let (negative, cs) := match cs with
    | '-' :: rest => (true, rest)
    | '+' :: rest => (false, rest)
    | _ => (false, cs)
  (numberIn? 10 cs).map fun n => if negative then -Int.ofNat n else n

/-- Reads a decimal without its sign: a point may stand before, between or behind the digits. -/
def decimalText? (cs : List Char) : Option DecimalText :=
  let (whole, rest) := spanDigits cs
  let (places, rest) := match rest with
    | '.' :: rest => spanDigits rest
    | _ => ([], rest)
  let digits := whole ++ places
  if digits.isEmpty then none
  else match rest with
    | [] => some ⟨digits, places.length, 0⟩
    | c :: rest =>
      if c == 'e' || c == 'E' then (exponent? rest).map (⟨digits, places.length, ·⟩) else none

/-- The least number that rounds beyond the greatest finite double. -/
def doubleLimit : Nat := Decimal.twoTo 1024 - Decimal.twoTo 970

/-- A decimal rounds to a finite double. -/
def DecimalText.isFinite (d : DecimalText) : Bool :=
  let significant := d.digits.dropWhile (· == 0)
  let n := significant.foldl (fun n d => n * 10 + d) 0
  let e := d.exponent - d.places
  if n == 0 || significant.length + e < 309 then true
  else if 310 < significant.length + e then false
  else if 0 ≤ e then n * Decimal.tenTo e.toNat < doubleLimit
  else n < doubleLimit * Decimal.tenTo e.natAbs

/-- Words for numbers that no decimal spells. -/
def floatWords : List String :=
  [".inf", ".Inf", ".INF", "+.inf", "+.Inf", "+.INF", "-.inf", "-.Inf", "-.INF",
    ".nan", ".NaN", ".NAN"]

/-- A scalar spells a floating point number. -/
def isFloat (s : String) : Bool :=
  floatWords.contains s ||
    let cs := match s.toList with
      | '+' :: cs | '-' :: cs => cs
      | cs => cs
    !hasLeadingZero cs && ((decimalText? cs).map DecimalText.isFinite).getD false

end Rollout.Yaml

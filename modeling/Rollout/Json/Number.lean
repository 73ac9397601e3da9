/-
JSON numbers: the literal as written and the number it stands for.

A literal without fraction and exponent is an integer when 64 bits hold it, signed or not, and
`-0` is not one.  Every other literal is a floating point number; a literal beyond the greatest
finite one stands for nothing.

Design notes: the floating point value is formed as readers commonly do it, from a 64-bit
significand and one multiplication or division by a power of ten, so its last bit can differ from
the nearest double.  It is only ever shown in messages.
-/

namespace Rollout.Json

/-- A number literal. -/
structure Number where
  negative : Bool
  /-- The digits before the point. -/
  whole : List Nat
  /-- The digits after the point, if there is one. -/
  fraction : Option (List Nat)
  /-- The exponent, if there is one. -/
  exponent : Option Int
  deriving Repr, Inhabited

namespace Number

/-- What a literal stands for. -/
inductive Meaning where
  | int (i : Int)
  | float (f : Float)
  | outOfRange
  deriving Inhabited

/-- The greatest unsigned integer of 64 bits. -/
def maxUnsigned : Nat := UInt64.size - 1

/-- The number that a list of digits spells. -/
def ofDigits (ds : List Nat) : Nat :=
  ds.foldl (fun n d => n * 10 + d) 0

/-- Takes digits while the significand fits into 64 bits; the second part is what is left. -/
def takeDigits (significand : Nat) : List Nat → Nat × List Nat
  | [] => (significand, [])
  | d :: rest =>
    if significand * 10 + d ≤ maxUnsigned then takeDigits (significand * 10 + d) rest
    else (significand, d :: rest)

/-- `significand · 10 ^ exponent`, or nothing beyond the greatest finite number. -/
def scale (f : Float) (exponent : Int) : Option Float :=
  if exponent.natAbs ≤ 308 then
    let power := Float.ofScientific 1 false exponent.natAbs
    if exponent ≥ 0 then
      let g := f * power
      if g.isInf then none else some g
    else some (f / power)
  else if f == 0.0 then some f
  else if exponent ≥ 0 then none
  else scale (f / Float.ofScientific 1 false 308) (exponent + 308)
termination_by exponent.natAbs

/-- The greatest exponent that is read in full; a larger one is zero or out of range at once. -/
def maxExponent : Nat := 2147483647

/-- The floating point number of a literal. -/
def toFloat? (n : Number) : Option Float :=
  let (s, dropped) := takeDigits 0 n.whole
  let (s, unread) := takeDigits s (n.fraction.getD [])
  let kept := (n.fraction.getD []).length - unread.length
  let start : Int := (dropped.length : Int) - kept
  let signed (f : Float) : Float := if n.negative then -f else f
  match n.exponent with
  | some e =>
    if e.natAbs > maxExponent then
      if s ≠ 0 ∧ e ≥ 0 then none else some (signed 0.0)
    else (scale (Float.ofNat s) (start + e)).map signed
  | none => (scale (Float.ofNat s) start).map signed

/-- The greatest number whose negation 64 bits with a sign hold. -/
def greatestNegated : Nat := Int64.minValue.toInt.natAbs

/-- What a literal stands for. -/
def meaning (n : Number) : Meaning :=
  let magnitude := ofDigits n.whole
  if n.fraction.isNone && n.exponent.isNone && !n.negative && magnitude ≤ maxUnsigned then
    .int magnitude
  else if n.fraction.isNone && n.exponent.isNone && n.negative && 0 < magnitude
      && magnitude ≤ greatestNegated then
    .int (-magnitude)
  else match n.toFloat? with
    | some f => .float f
    | none => .outOfRange

end Number

end Rollout.Json

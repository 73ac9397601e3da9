/-
The shortest decimal digits that read back as a given floating point number.

* `Shortest.digits` finds them in exact arithmetic: for one digit, then two, and so on, it looks at
  the two neighbours of the number on that decimal grid and takes the nearer one that lies in the
  interval of reals rounding to the number.
* `Shortest.text` sets them: positionally from `1e-5` up to below `1e16`, with an exponent outside.
-/
import Rollout.Decimal.Power

namespace Rollout.Decimal

namespace Shortest

/-- A positive number `m · 2 ^ q` with the width of the gap below it. -/
structure Binary where
  m : Nat
  q : Int
  /-- The gap below is half as wide: a power of two above the least exponent. -/
  narrowBelow : Bool

/-- The finite positive number of a bit pattern without sign. -/
def Binary.ofBits (bits : Nat) : Binary :=
  let fraction : Nat := bits % twoTo 52
  let exponent : Nat := bits / twoTo 52 % 2048
  if exponent == 0 then ⟨fraction, -1074, false⟩
  else ⟨fraction + twoTo 52, Int.ofNat exponent - 1075, fraction == 0 && exponent > 1⟩

/-- Compares `k · 10 ^ j` with `x · 2 ^ (q - 2)`. -/
def compareGrid (k : Nat) (j : Int) (x : Nat) (q : Int) : Ordering :=
  compare (k * tenTo j.toNat * twoTo (2 - q).toNat) (x * twoTo (q - 2).toNat * tenTo (-j).toNat)

/-- `k · 10 ^ j` rounds to the number. -/
def Binary.reads (b : Binary) (k : Nat) (j : Int) : Bool :=
  let low := compareGrid k j (4 * b.m - (if b.narrowBelow then 1 else 2)) b.q
  let high := compareGrid k j (4 * b.m + 2) b.q
  if b.m % 2 == 0 then low != .lt && high != .gt else low == .gt && high == .lt

/-- The number of places before the point: `10 ^ (p - 1) ≤ m · 2 ^ q < 10 ^ p`. -/
def Binary.places (b : Binary) : Int :=
  let scaled := b.m * tenTo 400 * twoTo b.q.toNat / twoTo (-b.q).toNat
  ((Nat.toDigits 10 scaled).length : Int) - 400

/-- The nearer of the two neighbours on the grid of step `10 ^ j` that reads back. -/
def Binary.onGrid? (b : Binary) (j : Int) : Option Nat :=
  let k := b.m * twoTo b.q.toNat * tenTo (-j).toNat / (twoTo (-b.q).toNat * tenTo j.toNat)
  match b.reads k j, b.reads (k + 1) j with
  | true, true =>
    if compareGrid (2 * k + 1) j (8 * b.m) b.q == .lt then some (k + 1)
    else if compareGrid (2 * k + 1) j (8 * b.m) b.q == .gt then some k
    else some (if k % 2 == 0 then k else k + 1)
  | true, false => some k
  | false, true => some (k + 1)
  | false, false => none

/-- The digits and the number of places before the point. -/
def digits (b : Binary) : List Char × Int :=
  let p := b.places
  let grids := (List.range 17).map fun n : Nat => p - (n : Int) - 1
  match grids.findSome? fun j => (b.onGrid? j).map ((·, j)) with
  | some (k, j) =>
    let ds := Nat.toDigits 10 k
    let shown := (ds.reverse.dropWhile (· == '0')).reverse
    (shown, (ds.length : Int) + j)
  | none => (['0'], 1)

/-- Sets digits with `p` places before the point. -/
def layout (ds : List Char) (p : Int) : List Char :=
  let n : Int := ds.length
  if p ≤ -5 ∨ 16 < p then
    let mantissa := match ds with
      | [d] => [d]
      | d :: rest => d :: '.' :: rest
      | [] => ['0']
    let e := p - 1
    mantissa ++ 'e' :: (if e < 0 then '-' else '+') :: Nat.toDigits 10 e.natAbs
  else if p ≤ 0 then '0' :: '.' :: (List.replicate (-p).toNat '0' ++ ds)
  else if n ≤ p then ds ++ List.replicate (p - n).toNat '0' ++ ['.', '0']
  else ds.take p.toNat ++ '.' :: ds.drop p.toNat

/-- The bit that is set in negative numbers. -/
def signBit : Nat := twoTo 63

/-- The text of a finite number; it always shows a point or an exponent. -/
def text (f : Float) : String :=
  let bits := f.toBits.toNat
  let body :=
    if bits % signBit == 0 then ['0', '.', '0']
    else
      let (ds, p) := digits (.ofBits (bits % signBit))
      layout ds p
  String.ofList (if bits ≥ signBit then '-' :: body else body)

end Shortest

end Rollout.Decimal

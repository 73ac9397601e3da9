/-
Powers of the two bases of numbers: two for how they are kept, ten for how they are written.
-/

namespace Rollout.Decimal

/-- Two to the power of `n`. -/
def twoTo (n : Nat) : Nat := Nat.pow 2 n

/-- Ten to the power of `n`. -/
def tenTo (n : Nat) : Nat := Nat.pow 10 n

end Rollout.Decimal

/-!
# Ratios

Exact non-negative numbers as ratios of two integers, and their nearest integers. The denominator of
every ratio in use is positive.
-/

namespace SchemaLayout

/-- The number `numerator / denominator`. -/
structure Ratio where
  numerator : Nat
  denominator : Nat

namespace Ratio

/-! ## Arithmetic -/

/-- The number `factor · base ^ exponent`. -/
def scaled (factor base : Nat) (exponent : Int) : Ratio :=
  ⟨factor * Nat.pow base exponent.toNat, Nat.pow base (-exponent).toNat⟩

/-- The product of two ratios. -/
def mul (a b : Ratio) : Ratio :=
  ⟨a.numerator * b.numerator, a.denominator * b.denominator⟩

/-- The quotient of two ratios. -/
def div (a b : Ratio) : Ratio :=
  ⟨a.numerator * b.denominator, a.denominator * b.numerator⟩

/-! ## Order -/

/-- `a` is less than `b`. -/
def lt (a b : Ratio) : Bool :=
  a.numerator * b.denominator < b.numerator * a.denominator

/-- `a` is at most `b`. -/
def le (a b : Ratio) : Bool :=
  a.numerator * b.denominator ≤ b.numerator * a.denominator

/-! ## Nearest integers -/

/-- The greatest integer that is not above a ratio. -/
def floor (r : Ratio) : Nat :=
  r.numerator / r.denominator

/-- The integer nearest to a ratio; an exact half goes to the even neighbour. -/
def round (r : Ratio) : Nat :=
  let rest := r.numerator % r.denominator
  if 2 * rest < r.denominator then r.floor
  else if r.denominator < 2 * rest then r.floor + 1
  else r.floor + r.floor % 2

end Ratio

end SchemaLayout

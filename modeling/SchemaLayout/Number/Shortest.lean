import SchemaLayout.Number.Double

/-!
# Shortest decimals

The decimal that stands for a number of double precision: of all decimals that are rounded to the
number the one with the fewest digits, and of those the nearest.
-/

namespace SchemaLayout.Double

/-- A ratio is rounded to `x`: it lies within half a step of `x`. The step below is only half as
wide where the significands start anew. The two ends belong to a number with an even significand. -/
def roundsFrom (x : Double) (r : Ratio) : Bool :=
  let quarters : Nat :=
    if x.significand = significandLimit / 2 ∧ leastExponent < x.exponent then 1 else 2
  let low : Ratio := .scaled (4 * x.significand - quarters) 2 (x.exponent - 2)
  let high : Ratio := .scaled (4 * x.significand + 2) 2 (x.exponent - 2)
  if x.significand % 2 = 0 then low.le r && r.le high else low.lt r && r.lt high

/-- The decimal with its last digit at `place` that is rounded to `x`, the nearest if there are
two. -/
def decimalAt? (x : Double) (place : Int) : Option (Nat × Int) :=
  let exact := x.ratio.div (.scaled 1 10 place)
  ([exact.round, exact.floor, exact.floor + 1].find? fun digits =>
    x.roundsFrom (.scaled digits 10 place)).map (·, place)

/-- A place in front of the first digit of a positive number. The ratio is a little more than the
logarithm of two to the base ten. -/
def placeInFront (x : Double) : Int :=
  ((x.significand.log2 : Int) + x.exponent + 1) * 30103 / 100000 + 1

/-- The digits of the shortest decimal and the place of the last one. Seventeen digits always do,
and the first stands at most two places behind the place in front. -/
def shortest (x : Double) : Nat × Int :=
  if x = zero then (0, 0)
  else ((List.range 20).findSome? fun (n : Nat) => x.decimalAt? (x.placeInFront - n)).getD (0, 0)

end SchemaLayout.Double

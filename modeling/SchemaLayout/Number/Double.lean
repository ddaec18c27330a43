import SchemaLayout.Number.Ratio

/-!
# Double precision

The finite numbers of double precision without their sign. An operation takes the exact result and
rounds it to the nearest of these numbers, an exact half to the one with the even significand. A
result that is rounded beyond them all is none.
-/

namespace SchemaLayout

/-- The number `significand · 2 ^ exponent`. -/
structure Double where
  significand : Nat
  exponent : Int
  deriving DecidableEq

namespace Double

/-! ## The numbers -/

/-- Significands have at most 53 bits. All of them are in use, but for those of the least exponent,
where smaller ones stand for the numbers near zero. -/
def significandLimit : Nat := 0x20000000000000

/-- The exponent of the numbers near zero. -/
def leastExponent : Int := -1074

/-- The exponent of the greatest numbers. -/
def greatestExponent : Int := 971

/-- Zero. -/
def zero : Double := ⟨0, leastExponent⟩

/-- The exact value of a number. -/
def ratio (x : Double) : Ratio :=
  .scaled x.significand 2 x.exponent

/-! ## Rounding -/

/-- The exponent of the numbers around a positive ratio: the least one at which the ratio takes no
more than 53 bits before the point. -/
def exponentAround (r : Ratio) : Int :=
  let guess : Int := (r.numerator.log2 : Int) - r.denominator.log2 - 53
  max leastExponent (if r.lt (.scaled significandLimit 2 guess) then guess else guess + 1)

/-- The number nearest to a ratio. -/
def nearest? (r : Ratio) : Option Double :=
  if r.numerator = 0 then some zero
  else
    let exponent := exponentAround r
    let significand := (r.div (.scaled 1 2 exponent)).round
    let x : Double :=
      if significand < significandLimit then ⟨significand, exponent⟩
      else ⟨significandLimit / 2, exponent + 1⟩
    if x.exponent ≤ greatestExponent then some x else none

/-! ## Arithmetic -/

/-- The product of two numbers. -/
def mul? (x y : Double) : Option Double :=
  nearest? (x.ratio.mul y.ratio)

/-- The quotient of two numbers. -/
def div? (x y : Double) : Option Double :=
  nearest? (x.ratio.div y.ratio)

/-! ## Powers of ten -/

/-- The greatest power of ten in double precision. -/
def greatestTenPower : Nat := 308

/-- The number nearest to a power of ten. -/
def tenPower? (power : Nat) : Option Double :=
  if power ≤ greatestTenPower then nearest? ⟨Nat.pow 10 power, 1⟩ else none

/-- A number divided by a power of ten. A greater power than there is in double precision is taken
in steps, each of which is rounded, until nothing is left. -/
def divTenPower? (x : Double) (power : Nat) : Option Double :=
  if x = zero then some zero
  else if power ≤ greatestTenPower then (tenPower? power).bind x.div?
  else
    ((tenPower? greatestTenPower).bind x.div?).bind fun rest =>
      divTenPower? rest (power - greatestTenPower)
termination_by power
decreasing_by simp only [greatestTenPower] at *; omega

/-- The number that is computed for `digits · 10 ^ exponent`: the digits, the power of ten and their
product or quotient are rounded one after the other. -/
def ofDecimal? (digits : Nat) (exponent : Int) : Option Double :=
  (nearest? ⟨digits, 1⟩).bind fun x =>
    if x = zero then some zero
    else if 0 ≤ exponent then (tenPower? exponent.toNat).bind x.mul?
    else x.divTenPower? (-exponent).toNat

end Double

end SchemaLayout

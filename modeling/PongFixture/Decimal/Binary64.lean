/-!
# Binary numbers of double precision

A finite number is a whole number of up to 53 bits times a power of two whose exponent lies
between -1074 and 971. `ofDecimal` finds the one nearest to a decimal number; of two that are
equally near it takes the one with the even mantissa, and beyond the largest it answers infinity.
-/

set_option autoImplicit false

namespace PongFixture.Decimal

/-- The power of two with an exponent, one if the exponent is negative. A quotient of `twos n` and
`twos (-n)` is thus the power with any exponent. -/
def twos (exponent : Int) : Nat := Nat.pow 2 exponent.toNat

/-- The power of ten with an exponent, one if the exponent is negative. -/
def tens (exponent : Int) : Nat := Nat.pow 10 exponent.toNat

/-- A number of double precision, or what stands in place of one. -/
inductive Binary64
  | nan
  | infinite (negative : Bool)
  | finite (negative : Bool) (mantissa : Nat) (exponent : Int)
  deriving DecidableEq

namespace Binary64

/-- The largest exponent. -/
def maxExponent : Int := 971

/-- The smallest exponent. -/
def minExponent : Int := -1074

/-- The bound that every mantissa stays below: two to the 53rd. -/
def mantissaBound : Nat := 9007199254740992

/-- The whole number nearest to a quotient, the even one of two that are equally near. -/
def roundQuotient (numerator denominator : Nat) : Nat :=
  let whole := numerator / denominator
  let rest := numerator % denominator
  if 2 * rest < denominator then whole
  else if denominator < 2 * rest then whole + 1
  else if whole % 2 = 0 then whole else whole + 1

/-- The exponent of the highest power of two that is at most a quotient of positive numbers. -/
def binaryOrder (numerator denominator : Nat) : Int :=
  let guess : Int := (numerator.log2 : Int) - denominator.log2
  if denominator * twos guess ≤ numerator * twos (-guess) then guess else guess - 1

/-- The number nearest to a quotient of positive numbers. -/
def ofQuotient (negative : Bool) (numerator denominator : Nat) : Binary64 :=
  let exponent := max (binaryOrder numerator denominator - 52) minExponent
  let mantissa :=
    roundQuotient (numerator * twos (-exponent)) (denominator * twos exponent)
  let (mantissa, exponent) :=
    if mantissa = mantissaBound then (mantissaBound / 2, exponent + 1) else (mantissa, exponent)
  if maxExponent < exponent then .infinite negative else .finite negative mantissa exponent

/-- The number nearest to `significand` times a power of ten. Powers that are out of reach are
told by the number of digits alone. -/
def ofDecimal (negative : Bool) (significand : Nat) (exponent : Int) : Binary64 :=
  if significand = 0 then .finite negative 0 minExponent
  else
    let order := ((Nat.toDigits 10 significand).length : Int) + exponent
    if 310 < order then .infinite negative
    else if order < -330 then .finite negative 0 minExponent
    else
      ofQuotient negative (significand * tens exponent) (tens (-exponent))

end Binary64

end PongFixture.Decimal

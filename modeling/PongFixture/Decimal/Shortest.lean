import PongFixture.Decimal.Binary64

/-!
# The shortest decimal text of a number

A number of double precision is shown by the fewest digits that read back as it, and of several
such texts by the one nearest to it, where a tie goes away from zero. For one digit after another,
`shortest` looks at the two neighbours of the number on the grid of that many digits and takes the
first grid that has one within the reals which round to the number. The text is always positional,
with at least one digit on each side of the point.
-/

set_option autoImplicit false

namespace PongFixture.Decimal

/-- A decimal number: `digits` times a power of ten. -/
structure Scaled where
  digits : Nat
  exponent : Int
  deriving DecidableEq

/-- Whether a decimal number is at most a multiple of a power of two. -/
def Scaled.atMost (d : Scaled) (factor : Nat) (exponent : Int) : Bool :=
  d.digits * tens d.exponent * twos (-exponent) ≤
    factor * twos exponent * tens (-d.exponent)

/-- Whether a multiple of a power of two is at most a decimal number. -/
def Scaled.atLeast (d : Scaled) (factor : Nat) (exponent : Int) : Bool :=
  factor * twos exponent * tens (-d.exponent) ≤
    d.digits * tens d.exponent * twos (-exponent)

/-- Whether a decimal number rounds to a binary one. The bounds are half-way to the neighbours,
and belong to the number itself if its mantissa is even. -/
def Scaled.readsAs (d : Scaled) (mantissa : Nat) (exponent : Int) : Bool :=
  let low :=
    if mantissa = Binary64.mantissaBound / 2 ∧ Binary64.minExponent < exponent then 4 * mantissa - 1
    else 4 * mantissa - 2
  let high := 4 * mantissa + 2
  if mantissa % 2 = 0 then d.atLeast low (exponent - 2) && d.atMost high (exponent - 2)
  else !d.atMost low (exponent - 2) && !d.atLeast high (exponent - 2)

/-- The largest power of ten that a positive number reaches, as an exponent. Every number of
double precision is large enough to be measured after multiplication by ten to the 350th. -/
def decimalOrder (mantissa : Nat) (exponent : Int) : Int :=
  let shifted := mantissa * tens 350 * twos exponent / twos (-exponent)
  ((Nat.toDigits 10 shifted).length : Int) - 351

/-- The multiples of a power of ten next to a number: the one below or at it, and the one above. -/
def neighbours (mantissa : Nat) (exponent grid : Int) : Scaled × Scaled :=
  let below :=
    mantissa * twos exponent * tens (-grid) /
      (twos (-exponent) * tens grid)
  (⟨below, grid⟩, ⟨below + 1, grid⟩)

/-- The nearer of the two neighbours of a number, the upper one if both are equally near. -/
def nearer (mantissa : Nat) (exponent : Int) (below above : Scaled) : Scaled :=
  let middle : Scaled := ⟨below.digits + above.digits, below.exponent⟩
  if middle.atMost (2 * mantissa) exponent then above else below

/-- The neighbour with a number of digits that reads back as the number, if there is one. -/
def candidate (mantissa : Nat) (exponent : Int) (count : Nat) : Option Scaled :=
  let grid := decimalOrder mantissa exponent - (count : Int) + 1
  let (below, above) := neighbours mantissa exponent grid
  match below.readsAs mantissa exponent, above.readsAs mantissa exponent with
  | true, true => some (nearer mantissa exponent below above)
  | true, false => some below
  | false, true => some above
  | false, false => none

/-- A decimal number in lowest terms, without zeros at the end of its digits. -/
def Scaled.strip (d : Scaled) : Scaled :=
  let zeros := ((Nat.toDigits 10 d.digits).reverse.takeWhile (· == '0')).length
  if d.digits = 0 then d else ⟨d.digits / tens zeros, d.exponent + zeros⟩

/-- The shortest decimal number that reads back as a positive binary one. -/
def shortest (mantissa : Nat) (exponent : Int) : Scaled :=
  (((List.range 17).findSome? fun n => candidate mantissa exponent (n + 1)).getD
    ⟨mantissa, 0⟩).strip

/-- Digits with a point before the last `places` of them. -/
def withPoint (ds : List Char) (places : Nat) : List Char :=
  if places < ds.length then ds.take (ds.length - places) ++ '.' :: ds.drop (ds.length - places)
  else '0' :: '.' :: List.replicate (places - ds.length) '0' ++ ds

/-- The positional text of a decimal number. -/
def Scaled.print (d : Scaled) : List Char :=
  let ds := Nat.toDigits 10 d.digits
  if 0 ≤ d.exponent then ds ++ List.replicate d.exponent.toNat '0' ++ ['.', '0']
  else withPoint ds (-d.exponent).toNat

/-- The text of a number. -/
def Binary64.print : Binary64 → List Char
  | .nan => ['N', 'a', 'N']
  | .infinite negative => (if negative then ['-'] else []) ++ ['i', 'n', 'f']
  | .finite negative mantissa exponent =>
    (if negative then ['-'] else []) ++
      (if mantissa = 0 then ['0', '.', '0'] else (shortest mantissa exponent).print)

end PongFixture.Decimal

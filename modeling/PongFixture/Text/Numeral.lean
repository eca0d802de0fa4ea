/-!
# Numerals

Numbers in positional notation: `digits` writes a number without leading zeros, `value` reads
digits of a base. The digits above nine are letters, of either case when read and of lower case
when written.
-/

set_option autoImplicit false

namespace PongFixture.Numeral

/-- The worth of a character as a digit, if it is one in some base up to sixteen. -/
def digit? (c : Char) : Option Nat :=
  if '0' ≤ c ∧ c ≤ '9' then some (c.toNat - '0'.toNat)
  else if 'a' ≤ c ∧ c ≤ 'f' then some (c.toNat - 'a'.toNat + 10)
  else if 'A' ≤ c ∧ c ≤ 'F' then some (c.toNat - 'A'.toNat + 10)
  else none

/-- Whether a character is a digit of a base. -/
def isDigit (base : Nat) (c : Char) : Bool :=
  match digit? c with
  | some d => d < base
  | none => false

/-- The number that digits stand for after a number has been read before them. -/
def valueFrom (base : Nat) (start : Nat) (cs : List Char) : Nat :=
  cs.foldl (fun n c => n * base + (digit? c).getD 0) start

/-- The number that digits stand for. -/
def value (base : Nat) (cs : List Char) : Nat := valueFrom base 0 cs

/-- A number in the digits of a base, without leading zeros. -/
def digits (base n : Nat) : List Char := Nat.toDigits base n

/-- A number in decimal digits. -/
def decimal (n : Nat) : List Char := digits 10 n

/-- A number in hexadecimal digits. -/
def hexadecimal (n : Nat) : List Char := digits 16 n

end PongFixture.Numeral

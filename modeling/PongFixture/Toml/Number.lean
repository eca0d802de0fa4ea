import PongFixture.Toml.Scan
import PongFixture.Text.Numeral
import PongFixture.Decimal.Binary64

/-!
# Numbers and moments in a document

Whole numbers lie between -2^63 and 2^63 - 1 and are written in decimal digits, or without a sign
in base sixteen, eight or two. Numbers with a fraction or an exponent are of double precision.
Single underscores may stand between digits. Moments are dates, times of day, and both together
with or without an offset; they are only checked, since nothing asks for their value.
-/

set_option autoImplicit false

namespace PongFixture.Toml

open Numeral Decimal

/-- A number in a document. -/
inductive Number
  | integer (value : Int)
  | real (value : Binary64)
  deriving DecidableEq

/-- Reads the digits of a base that come next, leaving out underscores between two of them. -/
def digitRun (base : Nat) : Bool → List Char → List Char × List Char
  | _, [] => ([], [])
  | started, c :: cs =>
    if isDigit base c then (c :: (digitRun base true cs).1, (digitRun base true cs).2)
    else if started ∧ c = '_' ∧ cs.head?.any (isDigit base) = true then digitRun base true cs
    else ([], c :: cs)

/-- Reads at least one digit of a base. -/
def digits? (base : Nat) (cs : List Char) : Option (List Char × List Char) :=
  match digitRun base false cs with
  | ([], _) => none
  | (ds, rest) => some (ds, rest)

/-- Reads a sign: whether it is a minus, if one is there. -/
def readSign : List Char → Option Bool × List Char
  | '+' :: cs => (some false, cs)
  | '-' :: cs => (some true, cs)
  | cs => (none, cs)

/-- The bound that whole numbers without a minus stay below: two to the 63rd. -/
def integerBound : Nat := 9223372036854775808

/-- The whole number of a sign and a magnitude, if it is in range. -/
def integerOf? (negative : Bool) (magnitude : Nat) : Option Number :=
  if negative then
    if magnitude ≤ integerBound then some (.integer (-(magnitude : Int))) else none
  else if magnitude < integerBound then some (.integer magnitude) else none

/-- Reads a whole number in another base than ten, after the marks of the base. -/
def readBased (base : Nat) (cs : List Char) : Option (Number × List Char) := do
  let (ds, cs) ← digits? base cs
  let number ← integerOf? false (value base ds)
  return (number, cs)

/-- Reads the whole part of a decimal number: a zero alone, or digits that do not begin with
one. -/
def readWhole : List Char → Option (List Char × List Char)
  | '0' :: cs => some (['0'], cs)
  | cs => digits? 10 cs

/-- Reads the digits after a point, if a point comes next. -/
def readFraction : List Char → Option (Option (List Char) × List Char)
  | '.' :: cs => (digits? 10 cs).map fun r => (some r.1, r.2)
  | cs => some (none, cs)

/-- Reads an exponent, if one comes next. -/
def readExponent : List Char → Option (Option Int × List Char)
  | [] => some (none, [])
  | c :: cs =>
    if c = 'e' ∨ c = 'E' then
      let (sign, cs) := readSign cs
      (digits? 10 cs).map fun r =>
        let magnitude : Int := value 10 r.1
        (some (if sign = some true then -magnitude else magnitude), r.2)
    else some (none, c :: cs)

/-- The number of double precision of its written parts. What rounds to positive infinity is
refused. -/
def realOf? (negative : Bool) (whole fraction : List Char) (exponent : Int) : Option Number :=
  match Binary64.ofDecimal negative (value 10 (whole ++ fraction))
      (exponent - (fraction.length : Int)) with
  | .infinite false => none
  | real => some (.real real)

/-- Reads the number after a sign. -/
def readMagnitude (sign : Option Bool) (cs : List Char) : Option (Number × List Char) := do
  let negative := sign == some true
  let (whole, cs) ← readWhole cs
  let (fraction, cs) ← readFraction cs
  let (exponent, cs) ← readExponent cs
  match fraction, exponent with
  | none, none =>
    let number ← integerOf? negative (value 10 whole)
    return (number, cs)
  | fraction, exponent =>
    let number ← realOf? negative whole (fraction.getD []) (exponent.getD 0)
    return (number, cs)

/-- Reads a number. -/
def readNumber (cs : List Char) : Option (Number × List Char) :=
  match cs with
  | '0' :: 'x' :: cs => readBased 16 cs
  | '0' :: 'o' :: cs => readBased 8 cs
  | '0' :: 'b' :: cs => readBased 2 cs
  | cs =>
    let (sign, body) := readSign cs
    match body with
    | 'i' :: _ =>
      (expectWord ['i', 'n', 'f'] body).map fun cs =>
        (.real (.infinite (sign == some true)), cs)
    | 'n' :: _ => (expectWord ['n', 'a', 'n'] body).map fun cs => (.real .nan, cs)
    | body => readMagnitude sign body

/-- Reads a number of exactly so many decimal digits. -/
def readFixed (count : Nat) (cs : List Char) : Option (Nat × List Char) :=
  let ds := cs.take count
  if ds.length = count ∧ ds.all (isDigit 10) = true then some (value 10 ds, cs.drop count)
  else none

/-- Reads a number of exactly so many decimal digits within bounds. -/
def readWithin (count low high : Nat) (cs : List Char) : Option (Nat × List Char) :=
  (readFixed count cs).filter fun r => low ≤ r.1 && r.1 ≤ high

/-- The number of days of a month. -/
def daysIn (year month : Nat) : Nat :=
  if month = 2 then
    if year % 4 = 0 ∧ (year % 100 ≠ 0 ∨ year % 400 = 0) then 29 else 28
  else if month = 4 ∨ month = 6 ∨ month = 9 ∨ month = 11 then 30
  else 31

/-- Reads a date. -/
def readDate (cs : List Char) : Option (List Char) := do
  let (year, cs) ← readFixed 4 cs
  let cs ← expect '-' cs
  let (month, cs) ← readWithin 2 1 12 cs
  let cs ← expect '-' cs
  let (_, cs) ← readWithin 2 1 (daysIn year month) cs
  return cs

/-- Reads hours and minutes. -/
def readHourMinute (cs : List Char) : Option (List Char) := do
  let (_, cs) ← readWithin 2 0 23 cs
  let cs ← expect ':' cs
  let (_, cs) ← readWithin 2 0 59 cs
  return cs

/-- Skips a fraction of a second, if one comes next. -/
def skipSecondFraction : List Char → List Char
  | '.' :: c :: cs => if isDigit 10 c then cs.dropWhile (isDigit 10) else '.' :: c :: cs
  | cs => cs

/-- Reads a time of day, which may fall into a leap second. -/
def readTime (cs : List Char) : Option (List Char) := do
  let cs ← readHourMinute cs
  let cs ← expect ':' cs
  let (_, cs) ← readWithin 2 0 60 cs
  return skipSecondFraction cs

/-- Reads an offset, if one comes next. -/
def readOffset : List Char → Option (List Char)
  | [] => some []
  | c :: cs =>
    if c = 'Z' ∨ c = 'z' then some cs
    else if c = '+' ∨ c = '-' then readHourMinute cs
    else some (c :: cs)

/-- Reads the time after a date, if one comes next. -/
def readTimeOfDate : List Char → Option (List Char)
  | [] => some []
  | c :: cs =>
    if c = 'T' ∨ c = 't' ∨ c = ' ' then
      match readTime cs with
      | some rest => readOffset rest
      | none => some (c :: cs)
    else some (c :: cs)

/-- Reads a moment. -/
def readMoment (cs : List Char) : Option (List Char) :=
  match readDate cs with
  | some rest => readTimeOfDate rest
  | none => readTime cs

end PongFixture.Toml

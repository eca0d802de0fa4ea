import PongFixture.Address.Basic
import PongFixture.Text.Numeral

/-!
# Reading socket addresses

Each reader takes the characters that remain, and answers with what it read and what is left, or
not at all. Numbers are read as far as their digits go. A port and a scope may have any number of
leading zeros, a group of version 6 up to four digits, an octet of version 4 no leading zero. In
version 6 one double colon stands for at least one group of zeros, and the last two groups may be
written as an address of version 4.
-/

set_option autoImplicit false

namespace PongFixture.Address

open Numeral

/-- How a number may be written: its base, the most digits it may have, whether it may begin with
a superfluous zero, and the bound that it stays below. -/
structure NumberForm where
  base : Nat
  most : Option Nat
  leadingZero : Bool
  bound : Nat

/-- An octet of version 4. -/
def octetForm : NumberForm := ⟨10, some 3, false, 256⟩

/-- A group of version 6. -/
def groupForm : NumberForm := ⟨16, some 4, true, 65536⟩

/-- A port. -/
def portForm : NumberForm := ⟨10, none, true, 65536⟩

/-- A scope number. -/
def scopeForm : NumberForm := ⟨10, none, true, 4294967296⟩

/-- Whether digits have a form. -/
def NumberForm.allows (form : NumberForm) (ds : List Char) : Bool :=
  !ds.isEmpty && (form.most.all fun most => ds.length ≤ most) &&
    (form.leadingZero || ds.length == 1 || ds.head? != some '0') &&
    decide (value form.base ds < form.bound)

/-- Reads all the digits there are as one number. -/
def readNumber (form : NumberForm) (cs : List Char) : Option (Nat × List Char) :=
  if form.allows (cs.takeWhile (isDigit form.base)) then
    some (value form.base (cs.takeWhile (isDigit form.base)), cs.dropWhile (isDigit form.base))
  else none

/-- Reads one given character. -/
def readChar (c : Char) : List Char → Option (List Char)
  | [] => none
  | d :: cs => if d = c then some cs else none

/-- Reads four octets with points between them. -/
def readIpv4 (cs : List Char) : Option (Ipv4 × List Char) := do
  let (a, cs) ← readNumber octetForm cs
  let cs ← readChar '.' cs
  let (b, cs) ← readNumber octetForm cs
  let cs ← readChar '.' cs
  let (c, cs) ← readNumber octetForm cs
  let cs ← readChar '.' cs
  let (d, cs) ← readNumber octetForm cs
  return (⟨UInt8.ofNat a, UInt8.ofNat b, UInt8.ofNat c, UInt8.ofNat d⟩, cs)

/-- The groups of one side of an address of version 6, whether an address of version 4 ends them,
and what is left. -/
structure Groups where
  groups : List UInt16
  embedded : Bool
  rest : List Char

/-- Reads at most `room` groups with colons between them. What cannot be read as a group is left,
with the colon before it. -/
def readGroups : Nat → Bool → List Char → Groups
  | 0, _, cs => ⟨[], false, cs⟩
  | room + 1, first, cs =>
    match if first then some cs else readChar ':' cs with
    | none => ⟨[], false, cs⟩
    | some body =>
      match if room = 0 then none else readIpv4 body with
      | some (ip, rest) => ⟨ip.groups, true, rest⟩
      | none =>
        match readNumber groupForm body with
        | none => ⟨[], false, cs⟩
        | some (group, rest) =>
          let others := readGroups room false rest
          ⟨UInt16.ofNat group :: others.groups, others.embedded, others.rest⟩

/-- Reads an address of version 6. -/
def readIpv6 (cs : List Char) : Option (Ipv6 × List Char) := do
  let head := readGroups 8 true cs
  if head.groups.length = 8 then
    let ip ← Ipv6.ofList? head.groups
    return (ip, head.rest)
  else if head.embedded then none
  else
    let cs ← readChar ':' head.rest
    let cs ← readChar ':' cs
    let tail := readGroups (7 - head.groups.length) true cs
    let gap := 8 - head.groups.length - tail.groups.length
    let ip ← Ipv6.ofList? (head.groups ++ List.replicate gap 0 ++ tail.groups)
    return (ip, tail.rest)

/-- Reads a colon and a port. -/
def readPort (cs : List Char) : Option (UInt16 × List Char) := do
  let cs ← readChar ':' cs
  let (port, cs) ← readNumber portForm cs
  return (UInt16.ofNat port, cs)

/-- Reads an endpoint of version 4. -/
def readEndpoint4 (cs : List Char) : Option (Endpoint × List Char) := do
  let (ip, cs) ← readIpv4 cs
  let (port, cs) ← readPort cs
  return (.v4 ip port, cs)

/-- Reads a scope, which is none where no percent sign stands. -/
def readScope (cs : List Char) : Option (UInt32 × List Char) :=
  match readChar '%' cs with
  | none => some (0, cs)
  | some cs => (readNumber scopeForm cs).map fun r => (UInt32.ofNat r.1, r.2)

/-- Reads an endpoint of version 6, whose address stands in brackets. -/
def readEndpoint6 (cs : List Char) : Option (Endpoint × List Char) := do
  let cs ← readChar '[' cs
  let (ip, cs) ← readIpv6 cs
  let (scope, cs) ← readScope cs
  let cs ← readChar ']' cs
  let (port, cs) ← readPort cs
  return (.v6 ip scope port, cs)

/-- Reads an endpoint of either version. -/
def readEndpoint (cs : List Char) : Option (Endpoint × List Char) :=
  (readEndpoint4 cs).or (readEndpoint6 cs)

/-- The endpoint that a whole text denotes, if it denotes one. -/
def parse? (text : List Char) : Option Endpoint :=
  match readEndpoint text with
  | some (endpoint, []) => some endpoint
  | _ => none

end PongFixture.Address

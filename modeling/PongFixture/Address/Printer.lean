import PongFixture.Address.Basic
import PongFixture.Text.Numeral

/-!
# Writing socket addresses

Every endpoint has one canonical text. In an address of version 6 the groups are written in lower
case without leading zeros, and the first of the longest runs of two or more zero groups becomes a
double colon; the mapped form ends in the address of version 4. A scope other than zero follows
the address.
-/

set_option autoImplicit false

namespace PongFixture.Address

open Numeral

/-- The text of an address of version 4. -/
def Ipv4.print (ip : Ipv4) : List Char :=
  decimal ip.a.toNat ++ '.' :: decimal ip.b.toNat ++ '.' :: decimal ip.c.toNat ++
    '.' :: decimal ip.d.toNat

/-- A run of neighbours in a list: how many elements come before it, and how many it has. -/
structure Run where
  start : Nat
  length : Nat
  deriving DecidableEq

/-- The first of the longest runs of zeros. -/
def longestZeros : List UInt16 → Run
  | [] => ⟨0, 0⟩
  | group :: groups =>
    let here := ((group :: groups).takeWhile (· == 0)).length
    let later := longestZeros groups
    if here = 0 ∨ here < later.length then ⟨later.start + 1, later.length⟩ else ⟨0, here⟩

/-- The text of groups with colons between them. -/
def printGroups : List UInt16 → List Char
  | [] => []
  | [group] => hexadecimal group.toNat
  | group :: groups => hexadecimal group.toNat ++ ':' :: printGroups groups

/-- The text of groups in which a run of zeros of the given place is left out. -/
def printAround (run : Run) (groups : List UInt16) : List Char :=
  printGroups (groups.take run.start) ++ ':' :: ':' ::
    printGroups (groups.drop (run.start + run.length))

/-- The text of an address of version 6. -/
def Ipv6.print (ip : Ipv6) : List Char :=
  match ip.mapped? with
  | some ip => "::ffff:".toList ++ ip.print
  | none =>
    if 1 < (longestZeros ip.groups).length then printAround (longestZeros ip.groups) ip.groups
    else printGroups ip.groups

/-- The text of an address. -/
def Ip.print : Ip → List Char
  | .v4 ip => ip.print
  | .v6 ip => ip.print

/-- The text of a scope, which is nothing for none. -/
def printScope (scope : UInt32) : List Char :=
  if scope = 0 then [] else '%' :: decimal scope.toNat

/-- The canonical text of an endpoint. -/
def Endpoint.print : Endpoint → List Char
  | .v4 ip port => ip.print ++ ':' :: decimal port.toNat
  | .v6 ip scope port =>
    '[' :: ip.print ++ printScope scope ++ ']' :: ':' :: decimal port.toNat

/-- The canonical text of an endpoint, as a string. -/
def Endpoint.display (endpoint : Endpoint) : String := String.ofList endpoint.print

end PongFixture.Address

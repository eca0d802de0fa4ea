/-!
# Socket addresses

An `Endpoint` is an IP address with a port; one of version 6 may name the interface that it is
meant on by a scope number, where zero names none.
-/

set_option autoImplicit false

namespace PongFixture.Address

/-- An address of version 4, by its four octets. -/
structure Ipv4 where
  a : UInt8
  b : UInt8
  c : UInt8
  d : UInt8
  deriving DecidableEq

/-- An address of version 6, by its eight groups. -/
structure Ipv6 where
  groups : List UInt16
  size : groups.length = 8
  deriving DecidableEq

/-- An address of either version. -/
inductive Ip
  | v4 (ip : Ipv4)
  | v6 (ip : Ipv6)
  deriving DecidableEq

/-- An address, a port on it, and for version 6 a scope. -/
inductive Endpoint
  | v4 (ip : Ipv4) (port : UInt16)
  | v6 (ip : Ipv6) (scope : UInt32) (port : UInt16)
  deriving DecidableEq

/-- The two groups that an address of version 4 fills where it is embedded in one of version 6. -/
def Ipv4.groups (ip : Ipv4) : List UInt16 :=
  [ip.a.toUInt16 * 256 + ip.b.toUInt16, ip.c.toUInt16 * 256 + ip.d.toUInt16]

/-- The address of version 4 in two groups. -/
def Ipv4.ofGroups (high low : UInt16) : Ipv4 :=
  ⟨(high / 256).toUInt8, high.toUInt8, (low / 256).toUInt8, low.toUInt8⟩

/-- The address of version 6 with some groups, if there are eight of them. -/
def Ipv6.ofList? (groups : List UInt16) : Option Ipv6 :=
  if size : groups.length = 8 then some ⟨groups, size⟩ else none

/-- The address of version 4 that one of version 6 stands for, if it is of the mapped form. -/
def Ipv6.mapped? (ip : Ipv6) : Option Ipv4 :=
  match ip.groups with
  | [0, 0, 0, 0, 0, 0xFFFF, high, low] => some (.ofGroups high low)
  | _ => none

namespace Endpoint

/-- The address of an endpoint without its port. -/
def ip : Endpoint → Ip
  | .v4 ip _ => .v4 ip
  | .v6 ip _ _ => .v6 ip

/-- The port of an endpoint. -/
def port : Endpoint → UInt16
  | .v4 _ port => port
  | .v6 _ _ port => port

/-- An endpoint at the same address with another port. -/
def withPort : Endpoint → UInt16 → Endpoint
  | .v4 ip _, port => .v4 ip port
  | .v6 ip scope _, port => .v6 ip scope port

/-- Whether the address is of version 6. -/
def isV6 : Endpoint → Bool
  | .v4 .. => false
  | .v6 .. => true

/-- Changing the port keeps the address. -/
@[simp] theorem ip_withPort (endpoint : Endpoint) (port : UInt16) :
    (endpoint.withPort port).ip = endpoint.ip := by
  cases endpoint <;> rfl

/-- The port is the one it was changed to. -/
@[simp] theorem port_withPort (endpoint : Endpoint) (port : UInt16) :
    (endpoint.withPort port).port = port := by
  cases endpoint <;> rfl

end Endpoint

end PongFixture.Address

import PongFixture.Address.Basic

/-!
# Listeners that would get in each other's way

Two endpoints overlap if a client could reach both by one address and port. A wildcard of version 4
stands for every address of that version, one of version 6 for every address of either version,
and a mapped address of version 6 for the address of version 4 in it.
-/

set_option autoImplicit false

namespace PongFixture.Listener

open Address

/-- An address with the mapped form replaced by the address it stands for. -/
def plain : Ip → Ip
  | .v4 ip => .v4 ip
  | .v6 ip =>
    match ip.mapped? with
    | some ip => .v4 ip
    | none => .v6 ip

/-- The wildcard of version 4. -/
def any4 : Ipv4 := ⟨0, 0, 0, 0⟩

/-- The wildcard of version 6. -/
def any6 : Ipv6 := ⟨[0, 0, 0, 0, 0, 0, 0, 0], rfl⟩

/-- An address covers itself; a wildcard of version 4 covers all of that version, and one of
version 6 covers everything. -/
inductive Covers : Ip → Ip → Prop
  | self (ip : Ip) : Covers ip ip
  | any4 (ip : Ipv4) : Covers (.v4 any4) (.v4 ip)
  | any6 (ip : Ip) : Covers (.v6 any6) ip

/-- Two endpoints overlap if they have one port and one address covers the other. -/
def Overlaps (a b : Endpoint) : Prop :=
  a.port = b.port ∧ (Covers (plain a.ip) (plain b.ip) ∨ Covers (plain b.ip) (plain a.ip))

/-- The test for covering. -/
def covers (a b : Ip) : Bool :=
  a == b ||
    match a, b with
    | .v4 ip, .v4 _ => ip == any4
    | .v6 ip, _ => ip == any6
    | _, _ => false

/-- The test for overlapping. -/
def overlaps (a b : Endpoint) : Bool :=
  a.port == b.port && (covers (plain a.ip) (plain b.ip) || covers (plain b.ip) (plain a.ip))

/-- The test for covering decides it. -/
theorem covers_eq_true_iff (a b : Ip) : covers a b = true ↔ Covers a b := by
  constructor
  · intro h
    simp only [covers, Bool.or_eq_true, beq_iff_eq] at h
    rcases h with rfl | h
    · exact .self a
    · cases a with
      | v4 ip =>
        cases b with
        | v4 other =>
          obtain rfl : ip = any4 := by simpa using h
          exact .any4 other
        | v6 other => simp at h
      | v6 ip =>
        obtain rfl : ip = any6 := by simpa using h
        exact .any6 b
  · intro h
    cases h with
    | self => simp [covers]
    | any4 ip => simp [covers]
    | any6 => simp [covers]

/-- The test for overlapping decides it. -/
theorem overlaps_eq_true_iff (a b : Endpoint) : overlaps a b = true ↔ Overlaps a b := by
  simp [overlaps, Overlaps, covers_eq_true_iff]

/-- Whether endpoints overlap can be decided by the test. -/
instance (a b : Endpoint) : Decidable (Overlaps a b) :=
  decidable_of_iff _ (overlaps_eq_true_iff a b)

/-- Overlapping does not depend on which endpoint comes first. -/
theorem Overlaps.symm {a b : Endpoint} (h : Overlaps a b) : Overlaps b a :=
  ⟨h.1.symm, h.2.symm⟩

end PongFixture.Listener

import PongFixture.Text.Utf8

/-!
# Base 64

Octets as text, six bits to a character, without padding at the end.
-/

set_option autoImplicit false

namespace PongFixture.Base64

/-- The characters of the digits from zero to sixty-three. -/
def alphabet : List Char :=
  "ABCDEFGHIJKLMNOPQRSTUVWXYZabcdefghijklmnopqrstuvwxyz0123456789+/".toList

/-- The character of a digit. -/
def digit (n : Nat) : Char := alphabet.getD (n % 64) 'A'

/-- The text of octets. -/
def encode : Bytes → List Char
  | a :: b :: c :: rest =>
    digit (a.toNat / 4) :: digit (a.toNat * 16 + b.toNat / 16) ::
      digit (b.toNat * 4 + c.toNat / 64) :: digit c.toNat :: encode rest
  | [a, b] =>
    [digit (a.toNat / 4), digit (a.toNat * 16 + b.toNat / 16), digit (b.toNat * 4)]
  | [a] => [digit (a.toNat / 4), digit (a.toNat * 16)]
  | [] => []

end PongFixture.Base64

import PongFixture.Text.Quoted
import PongFixture.Text.Utf8

/-!
# Quoted paths

A path need not be text. Between double quotes its characters are written as those of a text, and
the octets that are part of no character by their numbers.
-/

set_option autoImplicit false

namespace PongFixture.Quoted

/-- How an octet that is part of no character is written inside quotes. -/
def escapeOctet (b : UInt8) : List Char :=
  ['\\', 'x'] ++ [b.toNat / 16, b.toNat % 16].flatMap fun n => (Nat.toDigits 16 n).map Char.toUpper

/-- How a character of a path is written inside quotes: an apostrophe too has a backslash. -/
def escapeInPath (c : Char) : List Char := if c = '\'' then ['\\', c] else escape c

/-- The escapes of the octets of a path. Characters are taken off the front where there are any,
and single octets elsewhere. -/
def escapePath : Bytes → List Char
  | [] => []
  | b :: path =>
    match [0, 1, 2, 3].findSome? fun n =>
        match Utf8.decode? (b :: path.take n) with
        | some [c] => some (n, c)
        | _ => none with
    | some (n, c) => escapeInPath c ++ escapePath (path.drop n)
    | none => escapeOctet b ++ escapePath path
termination_by path => path.length
decreasing_by
  · simp only [List.length_drop, List.length_cons]; omega
  · simp

/-- A path in double quotes. -/
def ofPath (path : Bytes) : String := String.ofList ('"' :: (escapePath path ++ ['"']))

end PongFixture.Quoted

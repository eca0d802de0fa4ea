import PongFixture.Toml.Item

/-!
# Pointing at a place in a document

A complaint about a document shows the line where a stretch of it begins, with a row of carets
under the stretch. Lines and columns are counted from one and in characters; the row of carets has
one for every octet of the stretch, but not more than the line has octets from that column on, and
at least one.
-/

set_option autoImplicit false

namespace PongFixture.Toml

/-- The number of octets of a text. -/
def octets (text : List Char) : Nat := (Utf8.encode text).length

/-- A line of a document and a part of it. -/
structure Excerpt where
  line : Nat
  column : Nat
  content : List Char
  carets : Nat
  deriving DecidableEq

namespace Excerpt

/-- The excerpt for a stretch of a text. -/
def of (text : List Char) (extent : Extent) : Excerpt :=
  let before := text.take (text.length - extent.start)
  let stretch := (text.drop (text.length - extent.start)).take (extent.start - extent.stop)
  let lineBefore := (before.reverse.takeWhile (· != '\n')).reverse
  let lineAfter := (text.drop (text.length - extent.start)).takeWhile (· != '\n')
  let content := lineBefore ++ lineAfter
  { line := before.count '\n' + 1
    column := lineBefore.length + 1
    content := content
    carets := max 1 (min (octets stretch) (octets content - lineBefore.length)) }

/-- A margin as wide as the number of the line. -/
def margin (excerpt : Excerpt) : List Char :=
  List.replicate ((Nat.toDigits 10 excerpt.line).length + 1) ' ' ++ ['|']

/-- The excerpt in the words of a complaint, with the reason after it. -/
def print (excerpt : Excerpt) (reason : String) : String :=
  let number := toString excerpt.line
  "TOML parse error at line " ++ number ++ ", column " ++ toString excerpt.column ++ "\n" ++
    String.ofList excerpt.margin ++ "\n" ++
    number ++ " | " ++ String.ofList excerpt.content ++ "\n" ++
    String.ofList (excerpt.margin ++ List.replicate excerpt.column ' ' ++
      List.replicate excerpt.carets '^') ++ "\n" ++
    reason ++ "\n"

end Excerpt

end PongFixture.Toml

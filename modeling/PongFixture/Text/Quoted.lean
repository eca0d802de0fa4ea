import PongFixture.Text.Numeral
import PongFixture.Text.Unprintable

/-!
# Quoted text

A text between double quotes, as it stands in log fields and in refusals. The quote, the backslash
and the common controls are written with a backslash, and every other character that cannot be
shown as it is by its number.
-/

set_option autoImplicit false

namespace PongFixture.Quoted

/-- How one character is written inside quotes. -/
def escape (c : Char) : List Char :=
  if c = '\x00' then ['\\', '0']
  else if c = '\t' then ['\\', 't']
  else if c = '\r' then ['\\', 'r']
  else if c = '\n' then ['\\', 'n']
  else if c = '"' then ['\\', '"']
  else if c = '\\' then ['\\', '\\']
  else if Unprintable.isHidden c then
    ['\\', 'u', '\x7b'] ++ Numeral.hexadecimal c.toNat ++ ['\x7d']
  else [c]

/-- A text in double quotes. -/
def quote (text : List Char) : List Char := '"' :: (text.flatMap escape ++ ['"'])

/-- A string in double quotes. -/
def ofString (s : String) : String := String.ofList (quote s.toList)

end PongFixture.Quoted

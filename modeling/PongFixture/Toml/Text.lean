import PongFixture.Toml.Scan
import PongFixture.Text.Numeral

/-!
# Quoted text in a document

Text stands between double quotes, with escapes, or between single quotes, where every character
stands for itself; three quotes of either kind enclose text of several lines. The readers of a
body begin after the opening quotes and end after the closing ones. They take one character at a
time and keep in a small state what the characters before it have begun.

`writeText` is the way back: it puts any text between double quotes.
-/

set_option autoImplicit false

namespace PongFixture.Toml

/-- What an escape of one letter stands for. -/
def escapeOf? : Char → Option Char
  | 'b' => some '\x08'
  | 't' => some '\t'
  | 'n' => some '\n'
  | 'f' => some '\x0c'
  | 'r' => some '\r'
  | '"' => some '"'
  | '\\' => some '\\'
  | _ => none

/-- How many digits follow the letter of a numeric escape, less one. -/
def codeLength? : Char → Option Nat
  | 'u' => some 3
  | 'U' => some 7
  | _ => none

/-- The character of a number, if the number is that of a character. -/
def scalar? (n : Nat) : Option Char :=
  if n.isValidChar then some (Char.ofNat n) else none

/-- A result of a body with further text before it. -/
def withText (text : List Char) (body : Option (List Char × List Char)) :
    Option (List Char × List Char) :=
  body.map fun r => (text ++ r.1, r.2)

/-- What the body of a text in double quotes is in the middle of: nothing, an escape, or the digits
of a numeric escape, of which `more + 1` are still to come. -/
inductive BasicState
  | plain
  | escape
  | code (more value : Nat)

/-- Reads the body of a text in double quotes. -/
def basicBody : BasicState → List Char → Option (List Char × List Char)
  | _, [] => none
  | .plain, c :: cs =>
    if c = '"' then some ([], cs)
    else if c = '\\' then basicBody .escape cs
    else if isBasicChar c then withText [c] (basicBody .plain cs)
    else none
  | .escape, c :: cs =>
    match escapeOf? c, codeLength? c with
    | some text, _ => withText [text] (basicBody .plain cs)
    | none, some more => basicBody (.code more 0) cs
    | none, none => none
  | .code more value, c :: cs =>
    match Numeral.digit? c with
    | none => none
    | some d =>
      match more with
      | more + 1 => basicBody (.code more (value * 16 + d)) cs
      | 0 =>
        match scalar? (value * 16 + d) with
        | some text => withText [text] (basicBody .plain cs)
        | none => none

/-- Reads the body of a text in single quotes. -/
def literalBody : List Char → Option (List Char × List Char)
  | [] => none
  | c :: cs =>
    if c = '\'' then some ([], cs)
    else if isLiteralChar c then withText [c] (literalBody cs)
    else none

/-- What the body of a text in three double quotes is in the middle of: a number of quotes that
may turn out to close it, possibly after a line break that swallows blanks; an escape; the blanks
between a backslash and the end of its line; or the digits of a numeric escape. -/
inductive MultiState
  | plain (quotes : Nat) (folding : Bool)
  | escape
  | folding
  | code (more value : Nat)

/-- The quotes that belong to the text when `quotes` of them stand before something else. -/
def pendingQuotes (quote : Char) (quotes : Nat) : List Char := List.replicate quotes quote

/-- Reads the body of a text in three double quotes. Three to five quotes in a row close it, and
those beyond three belong to the text. -/
def multiBasicBody : MultiState → List Char → Option (List Char × List Char)
  | .plain quotes _, [] => if 3 ≤ quotes then some (pendingQuotes '"' (quotes - 3), []) else none
  | _, [] => none
  | .plain quotes folding, c :: cs =>
    if folding ∧ (isSpace c ∨ c = '\n') then multiBasicBody (.plain 0 true) cs
    else if c = '"' then
      if quotes = 5 then none else multiBasicBody (.plain (quotes + 1) false) cs
    else if 3 ≤ quotes then some (pendingQuotes '"' (quotes - 3), c :: cs)
    else if c = '\\' then withText (pendingQuotes '"' quotes) (multiBasicBody .escape cs)
    else if c = '\n' then
      withText (pendingQuotes '"' quotes ++ ['\n']) (multiBasicBody (.plain 0 false) cs)
    else if c = '\r' then
      match cs with
      | '\n' :: cs =>
        withText (pendingQuotes '"' quotes ++ (if folding then [] else ['\n']))
          (multiBasicBody (.plain 0 folding) cs)
      | _ => none
    else if isBasicChar c then
      withText (pendingQuotes '"' quotes ++ [c]) (multiBasicBody (.plain 0 false) cs)
    else none
  | .escape, c :: cs =>
    if isSpace c then multiBasicBody .folding cs
    else if c = '\n' then multiBasicBody (.plain 0 true) cs
    else if c = '\r' then
      match cs with
      | '\n' :: cs => multiBasicBody (.plain 0 true) cs
      | _ => none
    else
      match escapeOf? c, codeLength? c with
      | some text, _ => withText [text] (multiBasicBody (.plain 0 false) cs)
      | none, some more => multiBasicBody (.code more 0) cs
      | none, none => none
  | .folding, c :: cs =>
    if isSpace c then multiBasicBody .folding cs
    else if c = '\n' then multiBasicBody (.plain 0 true) cs
    else if c = '\r' then
      match cs with
      | '\n' :: cs => multiBasicBody (.plain 0 true) cs
      | _ => none
    else none
  | .code more value, c :: cs =>
    match Numeral.digit? c with
    | none => none
    | some d =>
      match more with
      | more + 1 => multiBasicBody (.code more (value * 16 + d)) cs
      | 0 =>
        match scalar? (value * 16 + d) with
        | some text => withText [text] (multiBasicBody (.plain 0 false) cs)
        | none => none

/-- Reads the body of a text in three single quotes, after a number of quotes that may turn out to
close it. -/
def multiLiteralBody : Nat → List Char → Option (List Char × List Char)
  | quotes, [] => if 3 ≤ quotes then some (pendingQuotes '\'' (quotes - 3), []) else none
  | quotes, c :: cs =>
    if c = '\'' then if quotes = 5 then none else multiLiteralBody (quotes + 1) cs
    else if 3 ≤ quotes then some (pendingQuotes '\'' (quotes - 3), c :: cs)
    else if c = '\n' then withText (pendingQuotes '\'' quotes ++ ['\n']) (multiLiteralBody 0 cs)
    else if c = '\r' then
      match cs with
      | '\n' :: cs => withText (pendingQuotes '\'' quotes ++ ['\n']) (multiLiteralBody 0 cs)
      | _ => none
    else if isLiteralChar c then
      withText (pendingQuotes '\'' quotes ++ [c]) (multiLiteralBody 0 cs)
    else none

/-- Text without a line end at its very beginning, as the opening of several lines allows. -/
def skipFirstNewline (cs : List Char) : List Char := (newline? cs).getD cs

/-- Reads a text that stands on one line. -/
def readLineText : List Char → Option (List Char × List Char)
  | '"' :: cs => basicBody .plain cs
  | '\'' :: cs => literalBody cs
  | _ => none

/-- Reads a text of any form. -/
def readText : List Char → Option (List Char × List Char)
  | '"' :: '"' :: '"' :: cs => multiBasicBody (.plain 0 false) (skipFirstNewline cs)
  | '\'' :: '\'' :: '\'' :: cs => multiLiteralBody 0 (skipFirstNewline cs)
  | cs => readLineText cs

/-- The eight digits of a numeric escape. -/
def codeDigits (c : Char) : List Char :=
  let ds := Numeral.hexadecimal c.toNat
  List.replicate (8 - ds.length) '0' ++ ds

/-- How one character is written between double quotes. -/
def writeChar (c : Char) : List Char :=
  if c = '"' ∨ c = '\\' then ['\\', c]
  else if isBasicChar c then [c]
  else '\\' :: 'U' :: codeDigits c

/-- A text between double quotes, on one line. -/
def writeText (text : List Char) : List Char := '"' :: (text.flatMap writeChar ++ ['"'])

/-- Text before nothing is no text. -/
@[simp] theorem withText_nil (body : Option (List Char × List Char)) : withText [] body = body := by
  cases body <;> rfl

end PongFixture.Toml

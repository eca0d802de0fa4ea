import PongFixture.Text.Utf8

/-!
# Characters of a document, and what lies between its parts

Readers take the characters that remain and answer with what they read and what is left, or with
nothing where the text is not well formed. Here are the classes of characters, and the readers of
what carries no meaning: blanks, comments and line ends.
-/

set_option autoImplicit false

namespace PongFixture.Toml

/-- A space or a tab. -/
def isSpace (c : Char) : Bool := c == ' ' || c == '\t'

/-- What may stand in a comment: tabs, and all that is not a control character. -/
def isCommentChar (c : Char) : Bool := c == '\t' || (' ' ≤ c && c != '\x7f')

/-- What may stand for itself between double quotes. -/
def isBasicChar (c : Char) : Bool := isCommentChar c && c != '"' && c != '\\'

/-- What may stand between single quotes. -/
def isLiteralChar (c : Char) : Bool := isCommentChar c && c != '\''

/-- What may stand in a key without quotes. -/
def isBareChar (c : Char) : Bool :=
  ('A' ≤ c && c ≤ 'Z') || ('a' ≤ c && c ≤ 'z') || ('0' ≤ c && c ≤ '9') || c == '-' || c == '_'

/-- Skips spaces and tabs. -/
def skipSpaces (cs : List Char) : List Char := cs.dropWhile isSpace

/-- Skips a comment up to the end of its line. -/
def skipComment : List Char → List Char
  | '#' :: cs => cs.dropWhile isCommentChar
  | cs => cs

/-- Reads the end of a line: a line feed, with or without a carriage return before it. -/
def newline? : List Char → Option (List Char)
  | '\n' :: cs => some cs
  | '\r' :: '\n' :: cs => some cs
  | _ => none

/-- Reads the end of a line or of the document. -/
def lineEnd? : List Char → Option (List Char)
  | [] => some []
  | c :: cs => newline? (c :: cs)

/-- Reads what may follow a statement on its line. -/
def restOfLine? (cs : List Char) : Option (List Char) :=
  lineEnd? (skipComment (skipSpaces cs))

/-- Skips blanks, line ends and comments, from within a comment or not. -/
def skipGaps : Bool → List Char → List Char
  | _, [] => []
  | _, '\n' :: cs => skipGaps false cs
  | _, '\r' :: '\n' :: cs => skipGaps false cs
  | true, c :: cs => if isCommentChar c then skipGaps true cs else c :: cs
  | false, c :: cs =>
    if isSpace c then skipGaps false cs
    else if c == '#' then skipGaps true cs
    else c :: cs

/-- Reads one given character. -/
def expect (c : Char) : List Char → Option (List Char)
  | [] => none
  | d :: cs => if d = c then some cs else none

/-- Reads a given word. -/
def expectWord : List Char → List Char → Option (List Char)
  | [], cs => some cs
  | c :: word, cs => (expect c cs).bind (expectWord word)

end PongFixture.Toml

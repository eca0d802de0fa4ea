import PongFixture.Toml.Item
import PongFixture.Toml.Text

/-!
# Reading a document

A document is read in two steps. Its text is a series of statements: headers, and keys with their
values (`Statement.readAll`). The statements then build the table that the document denotes
(`Entries.ofStatements?`). A text is refused if it is not such a series, or if its statements
define something twice.

Arrays and inline tables may be nested less than `maxDepth` deep, and a path may have less than
`maxDepth` keys.
-/

set_option autoImplicit false

namespace PongFixture.Toml

/-- The depth of nesting, and the length of paths, from which on a document is refused. -/
def maxDepth : Nat := 80

/-- The stretch between two places, given what is left at each. -/
def extentOf (start stop : List Char) : Extent := ⟨start.length, stop.length⟩

/-! ## Keys -/

/-- Reads a single key: bare, or quoted on one line. -/
def readKey (cs : List Char) : Option (Key × List Char) :=
  match cs with
  | '"' :: _ => (readLineText cs).map fun r => (⟨String.ofList r.1, extentOf cs r.2⟩, r.2)
  | '\'' :: _ => (readLineText cs).map fun r => (⟨String.ofList r.1, extentOf cs r.2⟩, r.2)
  | cs =>
    let bare := cs.takeWhile isBareChar
    let rest := cs.dropWhile isBareChar
    if bare.isEmpty then none else some (⟨String.ofList bare, extentOf cs rest⟩, rest)

/-- Keys with points between them: those before the last, and the last. -/
structure Path where
  before : List Key
  last : Key

/-- Reads at most so many keys with points and blanks between them. -/
def readKeys : Nat → List Char → Option (Path × List Char)
  | 0, _ => none
  | count + 1, cs =>
    match readKey (skipSpaces cs) with
    | none => none
    | some (key, rest) =>
      match skipSpaces rest with
      | '.' :: rest =>
        (readKeys count rest).map fun r => (⟨key :: r.1.before, r.1.last⟩, r.2)
      | rest => some (⟨[], key⟩, rest)

/-- Reads a path. -/
def readPath (cs : List Char) : Option (Path × List Char) := readKeys (maxDepth - 1) cs

/-! ## Values -/

/-- A reader of one item. -/
abbrev ItemReader := List Char → Option (Item × List Char)

/-- Reads an item without parts. -/
def readScalar (cs : List Char) : Option (Item × List Char) :=
  match cs with
  | [] => none
  | c :: _ =>
    if c = '"' ∨ c = '\'' then
      (readText cs).map fun r => (.text (String.ofList r.1) (extentOf cs r.2), r.2)
    else if c = 't' then
      (expectWord "true".toList cs).map fun rest => (.boolean true (extentOf cs rest), rest)
    else if c = 'f' then
      (expectWord "false".toList cs).map fun rest => (.boolean false (extentOf cs rest), rest)
    else
      match readMoment cs with
      | some rest => some (.moment (extentOf cs rest), rest)
      | none => (readNumber cs).map fun r => (.number r.1 (extentOf cs r.2), r.2)

/-- Reads the items of an array and the bracket that closes it. A comma may follow the last. -/
def readItems (element : ItemReader) (cs : List Char) : Option (List Item × List Char) :=
  match skipGaps false cs with
  | ']' :: rest => some ([], rest)
  | begun =>
    match element begun with
    | none => none
    | some (item, rest) =>
      match skipGaps false rest with
      | ']' :: rest => some ([item], rest)
      | ',' :: rest =>
        if rest.length < cs.length then
          (readItems element rest).map fun r => (item :: r.1, r.2)
        else none
      | _ => none
termination_by cs.length

/-- Reads a path, an equals sign and an item. -/
def readPair (element : ItemReader) (cs : List Char) : Option ((Path × Item) × List Char) := do
  let (path, cs) ← readPath cs
  let cs ← expect '=' cs
  let (item, cs) ← element (skipSpaces cs)
  return ((path, item), cs)

/-- Reads the pairs between braces, of which there is at least one, and the brace that closes
them. -/
def readPairs (element : ItemReader) (cs : List Char) :
    Option (List (Path × Item) × List Char) :=
  match readPair element cs with
  | none => none
  | some (pair, rest) =>
    match skipSpaces rest with
    | '\x7d' :: rest => some ([pair], rest)
    | ',' :: rest =>
      if rest.length < cs.length then
        (readPairs element rest).map fun r => (pair :: r.1, r.2)
      else none
    | _ => none
termination_by cs.length

/-- Reads what stands between braces, and the brace that closes it. -/
def readInline (element : ItemReader) (cs : List Char) :
    Option (List (Path × Item) × List Char) :=
  match skipSpaces cs with
  | '\x7d' :: rest => some ([], rest)
  | begun => readPairs element begun

/-- The contents of an inline table with some pairs. -/
def inlineEntries? (pairs : List (Path × Item)) : Option Entries :=
  (pairs.foldlM
    (fun table pair => Table.assign .inlineDotted pair.1.before pair.1.last pair.2 table)
    ⟨.inline, [], none⟩).map Table.entries

/-- Reads an item that is nested at most so deep. -/
def readItem : Nat → ItemReader
  | 0, cs => readScalar cs
  | depth + 1, cs =>
    match cs with
    | '[' :: body =>
      (readItems (readItem depth) body).map fun r => (.array r.1 (extentOf cs r.2), r.2)
    | '\x7b' :: body =>
      (readInline (readItem depth) body).bind fun r =>
        (inlineEntries? r.1).map fun entries =>
          (.table .inline entries (some (extentOf cs r.2)), r.2)
    | cs => readScalar cs

/-- Reads an item. -/
def readValue : ItemReader := readItem (maxDepth - 1)

/-! ## Statements -/

/-- A line that matters. -/
inductive Statement
  | assign (path : Path) (item : Item)
  | header (path : Path) (extent : Extent)
  | rowHeader (path : Path) (extent : Extent)

/-- Reads a header of a table or of a table in a row. -/
def readHeader (cs : List Char) : Option (Statement × List Char) :=
  match cs with
  | '[' :: '[' :: body => do
    let (path, rest) ← readPath body
    let rest ← expect ']' rest
    let rest ← expect ']' rest
    return (.rowHeader path (extentOf cs rest), rest)
  | '[' :: body => do
    let (path, rest) ← readPath body
    let rest ← expect ']' rest
    return (.header path (extentOf cs rest), rest)
  | _ => none

/-- Reads a statement and the rest of its line. -/
def readStatement (cs : List Char) : Option (Statement × List Char) := do
  let (statement, rest) ←
    match cs with
    | '[' :: _ => readHeader cs
    | _ => (readPair readValue cs).map fun r => (Statement.assign r.1.1 r.1.2, r.2)
  let rest ← restOfLine? rest
  return (statement, rest)

/-- Reads one line: its statement, if it has one. -/
def readLine (cs : List Char) : Option (Option Statement × List Char) :=
  match skipSpaces cs with
  | [] => some (none, [])
  | '#' :: comment => (lineEnd? (skipComment ('#' :: comment))).map fun rest => (none, rest)
  | begun =>
    match newline? begun with
    | some rest => some (none, rest)
    | none => (readStatement begun).map fun r => (some r.1, r.2)

/-- Reads all lines to the end of the text. -/
def Statement.readAll (cs : List Char) : Option (List Statement) :=
  if cs.isEmpty then some []
  else
    match readLine cs with
    | none => none
    | some (statement, rest) =>
      if rest.length < cs.length then
        (Statement.readAll rest).map fun statements => statement.toList ++ statements
      else none
termination_by cs.length

/-! ## Documents -/

/-- A document: its text, and the table that it denotes. -/
structure Document where
  text : List Char
  entries : Entries

/-- What the statements up to one have built, and the path of the header under which that one
adds to it. -/
structure Draft where
  root : Table
  under : List Key

/-- Adds one statement to a draft. -/
def Draft.add (draft : Draft) : Statement → Option Draft
  | .assign path item =>
    (Table.within .implied
      (fun table => (Table.assign .dotted path.before path.last item table).map (·.reaching item))
      draft.under draft.root).map fun root => { draft with root }
  | .header path extent =>
    (Table.within .implied (Table.openTable path.last extent) path.before draft.root).map
      fun root => ⟨root, path.before ++ [path.last]⟩
  | .rowHeader path extent =>
    (Table.within .implied (Table.openRow path.last extent) path.before draft.root).map
      fun root => ⟨root, path.before ++ [path.last]⟩

/-- The table that statements denote, if they do not contradict each other. -/
def Entries.ofStatements? (statements : List Statement) : Option Entries :=
  (statements.foldlM Draft.add ⟨Table.root, []⟩).map fun draft => draft.root.entries

/-- The mark that may begin a text. -/
def byteOrderMark : Char := '\uFEFF'

/-- A text without a mark at its beginning. -/
def skipMark : List Char → List Char
  | [] => []
  | c :: cs => if c = byteOrderMark then cs else c :: cs

/-- Reads a document. -/
def Document.parse? (text : List Char) : Option Document :=
  ((Statement.readAll (skipMark text)).bind Entries.ofStatements?).map fun entries =>
    ⟨text, entries⟩

end PongFixture.Toml

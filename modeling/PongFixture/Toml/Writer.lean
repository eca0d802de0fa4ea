import PongFixture.Toml.Document

/-!
# Writing a document

A document is written line by line: headers, and keys with their values. Keys that may stand for
themselves do, all others are put between quotes. A `Layout` is a document of tables on one level;
what a table holds can be given under a header, by dotted keys or between braces, and a value can
be an array too. `Layout.value?` says what is written under a name, in whichever way.
-/

set_option autoImplicit false

namespace PongFixture.Toml

/-- What is written: a value, or a table with its pairs. -/
inductive Written
  | text (value : String)
  | number (value : Nat)
  | boolean (value : Bool)
  | array (items : List Written)
  | table (pairs : List (String × Written))

/-- Whether a key may stand for itself. -/
def isBareKey (name : String) : Bool := !name.toList.isEmpty && name.toList.all isBareChar

/-- A key, between quotes if it may not stand for itself. -/
def writeKey (name : String) : List Char :=
  if isBareKey name then name.toList else writeText name.toList

/-- Keys with points between them. -/
def writePath (path : List String) (key : String) : List Char :=
  path.flatMap (fun name => writeKey name ++ ['.']) ++ writeKey key

/-- What stands between a key and its value. -/
def assignment : List Char := [' ', '=', ' ']

/-- What stands before something that has others after it. -/
def separator (isLast : Bool) : List Char := if isLast then [] else [',', ' ']

mutual

/-- A value on one line. -/
def Written.print : Written → List Char
  | .text value => writeText value.toList
  | .number value => Numeral.decimal value
  | .boolean value => (if value then "true" else "false").toList
  | .array items => '[' :: (printItems items ++ [']'])
  | .table pairs => '\x7b' :: (printPairs pairs ++ ['\x7d'])

/-- Values with commas between them. -/
def printItems : List Written → List Char
  | [] => []
  | item :: items => item.print ++ separator items.isEmpty ++ printItems items

/-- Keys and their values with commas between them. -/
def printPairs : List (String × Written) → List Char
  | [] => []
  | (name, value) :: pairs =>
    writeKey name ++ assignment ++ value.print ++ separator pairs.isEmpty ++ printPairs pairs

end

/-- A line of a document. -/
inductive Line
  | assign (path : List String) (key : String) (value : Written)
  | header (path : List String) (key : String)

/-- A line with its end. -/
def Line.print : Line → List Char
  | .assign path key value => writePath path key ++ assignment ++ value.print ++ ['\n']
  | .header path key => '[' :: (writePath path key ++ [']', '\n'])

/-- A key with its value in front of all headers, possibly after the name of a table and a point. -/
structure Assignment where
  table : Option String
  key : String
  value : Written

/-- A document of tables on one level: what stands in front of all headers, and the tables under
headers with their pairs. -/
structure Layout where
  top : List Assignment
  tables : List (String × List (String × Written))

namespace Layout

/-- The lines of a table under its header. -/
def tableLines (table : String × List (String × Written)) : List Line :=
  .header [] table.1 :: table.2.map fun pair => .assign [] pair.1 pair.2

/-- The lines of a document. -/
def lines (layout : Layout) : List Line :=
  layout.top.map (fun given => .assign given.table.toList given.key given.value) ++
    layout.tables.flatMap tableLines

/-- The text of a document. -/
def print (layout : Layout) : List Char := layout.lines.flatMap Line.print

/-- The keys without the name of a table before them, with their values. -/
def plain (layout : Layout) : List (String × Written) :=
  layout.top.filterMap fun given =>
    if given.table = none then some (given.key, given.value) else none

/-- The keys that have the name of a table before them, with their values. -/
def dotted (layout : Layout) (name : String) : List (String × Written) :=
  layout.top.filterMap fun given =>
    if given.table = some name then some (given.key, given.value) else none

/-- What is written under a name. -/
def value? (layout : Layout) (name : String) : Option Written :=
  match layout.plain.lookup name, layout.tables.lookup name, layout.dotted name with
  | some value, _, _ => some value
  | none, some pairs, _ => some (.table pairs)
  | none, none, [] => none
  | none, none, pairs => some (.table pairs)

end Layout

end PongFixture.Toml

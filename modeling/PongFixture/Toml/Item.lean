import PongFixture.Toml.Number

/-!
# What a document holds

A document is a table: keys with items, in the order in which they were first given. Every item
knows the stretch of text that it was read from, except for tables that no brackets of their own
enclose; every key knows its stretch too. A table with a header stretches from the header to the
last value that is given under it, and a row of tables from its first header to the end of its last
table. A stretch is given by the number of characters left at its beginning and after its end, so
that it does not depend on what comes before.

`Table.within` changes the table at the end of a path and makes the tables that are missing on
the way. What it may enter depends on how the path is written, which keeps a table from being
defined in two places.
-/

set_option autoImplicit false

namespace PongFixture.Toml

/-- A stretch of text, by the number of characters left at its beginning and after its end. -/
structure Extent where
  start : Nat
  stop : Nat
  deriving DecidableEq

/-- The stretch from the beginning of one to the end of another. -/
def Extent.upTo (first last : Extent) : Extent := ⟨first.start, last.stop⟩

/-- A key where it was first given. -/
structure Key where
  name : String
  extent : Extent
  deriving DecidableEq

/-- How a table came about: between braces, by a dotted key between braces, under a header of its
own, on the way to another header, or by a dotted key. -/
inductive TableForm
  | inline
  | inlineDotted
  | header
  | implied
  | dotted
  deriving DecidableEq

namespace TableForm

/-- Whether a table stands between braces. -/
def isInline (form : TableForm) : Bool := form = .inline || form = .inlineDotted

/-- Whether a table came about by a dotted key. -/
def isDotted (form : TableForm) : Bool := form = .dotted || form = .inlineDotted

/-- Whether a path that makes tables of one form may go through a table of another. A header may
go through whatever does not stand between braces, a dotted key only through what has no header
or braces of its own. -/
def mayEnter : TableForm → TableForm → Bool
  | .implied, form => !form.isInline
  | .dotted, form => form = .implied || form = .dotted
  | .inlineDotted, form => form = .inlineDotted
  | _, _ => false

end TableForm

/-- What stands under a key or in an array. -/
inductive Item
  | text (value : String) (extent : Extent)
  | number (value : Number) (extent : Extent)
  | boolean (value : Bool) (extent : Extent)
  | moment (extent : Extent)
  | array (items : List Item) (extent : Extent)
  | table (form : TableForm) (entries : List (Key × Item)) (extent : Option Extent)
  | tables (rows : List Item) (extent : Extent)

/-- The stretch of an item, if it has one. -/
def Item.extent? : Item → Option Extent
  | .text _ extent => some extent
  | .number _ extent => some extent
  | .boolean _ extent => some extent
  | .moment extent => some extent
  | .array _ extent => some extent
  | .table _ _ extent => extent
  | .tables _ extent => some extent

/-- The contents of a table. -/
abbrev Entries := List (Key × Item)

namespace Entries

/-- The item under a name. -/
def find? (name : String) (entries : Entries) : Option Item :=
  (List.find? (fun entry => entry.1.name == name) entries).map (·.2)

/-- Puts an item in place of the one under a name. -/
def replace (name : String) (item : Item) (entries : Entries) : Entries :=
  entries.map fun entry => if entry.1.name == name then (entry.1, item) else entry

/-- Takes out what stands under a name. -/
def remove (name : String) (entries : Entries) : Entries :=
  entries.filter fun entry => !(entry.1.name == name)

/-- Adds an item under a key, whatever is there. -/
def append (key : Key) (item : Item) (entries : Entries) : Entries := entries ++ [(key, item)]

/-- Adds an item under a key that is not there yet. -/
def insert (key : Key) (item : Item) (entries : Entries) : Option Entries :=
  match find? key.name entries with
  | none => some (entries.append key item)
  | some _ => none

end Entries

/-- A table while it is being built. -/
structure Table where
  form : TableForm
  entries : Entries
  extent : Option Extent

namespace Table

/-- A table as an item. -/
def toItem (table : Table) : Item := .table table.form table.entries table.extent

/-- The table that a whole document stands for, before its first statement. -/
def root : Table := ⟨.header, [], none⟩

/-- Changes the table at the end of a path. A row of tables is entered at its last table. -/
def within (made : TableForm) (change : Table → Option Table) : List Key → Table → Option Table
  | [], table => change table
  | key :: path, table =>
    match table.entries.find? key.name with
    | none =>
      (within made change path ⟨made, [], none⟩).map fun inner =>
        { table with entries := table.entries.append key inner.toItem }
    | some (.table form entries extent) =>
      if made.mayEnter form then
        (within made change path ⟨form, entries, extent⟩).map fun inner =>
          { table with entries := table.entries.replace key.name inner.toItem }
      else none
    | some (.tables rows extent) =>
      match rows.getLast? with
      | some (.table form entries row) =>
        (within made change path ⟨form, entries, row⟩).map fun inner =>
          let whole := (inner.extent.map extent.upTo).getD extent
          let item := Item.tables (rows.dropLast ++ [inner.toItem]) whole
          { table with entries := table.entries.replace key.name item }
      | _ => none
    | some _ => none

/-- Gives a key its item at the end of a dotted path. A path of one key adds to a table that is
not dotted, a longer one only to tables that are. -/
def assign (made : TableForm) (path : List Key) (key : Key) (item : Item) (table : Table) :
    Option Table :=
  within made
    (fun inner =>
      if inner.form.isDotted == path.isEmpty then none
      else (inner.entries.insert key item).map fun entries => { inner with entries })
    path table

/-- Lets the stretch of a table go on to the end of an item that was given to it. -/
def reaching (item : Item) (table : Table) : Table :=
  { table with extent := table.extent.map fun extent => (item.extent?.map extent.upTo).getD extent }

/-- Opens a table under a header of its own. It may be there already if it was only on the way to
others, and then comes last. -/
def openTable (key : Key) (extent : Extent) (table : Table) : Option Table :=
  match table.entries.find? key.name with
  | none =>
    some { table with
      entries := table.entries.append key (.table .header [] (some extent)) }
  | some (.table .implied inner _) =>
    some { table with
      entries := (table.entries.remove key.name).append key (.table .header inner (some extent)) }
  | some _ => none

/-- Adds a table to a row of tables. -/
def openRow (key : Key) (extent : Extent) (table : Table) : Option Table :=
  let opened := Item.table .header [] (some extent)
  match table.entries.find? key.name with
  | none => some { table with entries := table.entries.append key (.tables [opened] extent) }
  | some (.tables rows whole) =>
    some { table with
      entries :=
        table.entries.replace key.name (.tables (rows ++ [opened]) (whole.upTo extent)) }
  | some _ => none

end Table

end PongFixture.Toml

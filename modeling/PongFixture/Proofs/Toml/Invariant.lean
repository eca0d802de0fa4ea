import PongFixture.Toml.Document

/-!
# What holds of every document

A document is built in few ways: items are read, arrays and tables are made of them, and an entry of
a table is appended, replaced or taken out. A property of items that all of these keep holds of
every document that is read. This goes through the readers and the builder once, for any such
property.

What building does to a table is said once, for a change below a key (`Table.Below`) and for the two
kinds of headers (`Table.Opened`, `Table.Lengthened`). `Table.within` is the only way into the depth of
a document, so what its change keeps at the end of a path is kept for the whole document.
-/

set_option autoImplicit false

namespace PongFixture.Toml

/-- A property of items, and one of the contents of tables, that all reading and building keeps. -/
structure Invariant (good : Item → Prop) (fine : Entries → Prop) : Prop where
  scalar : ∀ cs item rest, readScalar cs = some (item, rest) → good item
  array : ∀ items extent, (∀ item ∈ items, good item) → good (.array items extent)
  table : ∀ form entries extent, good (.table form entries extent) ↔ fine entries
  tables : ∀ rows extent, good (.tables rows extent) ↔ ∀ row ∈ rows, good row
  nil : fine []
  find : ∀ entries name item, fine entries → entries.find? name = some item → good item
  append : ∀ entries key item, fine entries → entries.find? key.name = none → good item →
    fine (entries.append key item)
  replace : ∀ entries name item, fine entries → good item → fine (entries.replace name item)
  remove : ∀ entries name, fine entries → fine (entries.remove name)

/-- What every step of a run keeps, the run keeps. -/
theorem foldlM_keeps {σ α : Type} {step : σ → α → Option σ} {Good : σ → Prop} (items : List α)
    (keeps : ∀ item ∈ items, ∀ state next, Good state → step state item = some next → Good next) :
    ∀ state last, Good state → items.foldlM step state = some last → Good last := by
  induction items with
  | nil =>
    intro state last good h
    cases h
    exact good
  | cons item items ih =>
    intro state last good h
    rw [List.foldlM_cons, Option.bind_eq_bind, Option.bind_eq_some_iff] at h
    obtain ⟨next, hstep, hrest⟩ := h
    have hnext : Good next := keeps item List.mem_cons_self state next good hstep
    apply ih _ next last hnext hrest
    intro other hother
    exact keeps other (List.mem_cons_of_mem _ hother)

/-- What an item without parts may be. -/
theorem readScalar_cases {cs rest : List Char} {item : Item}
    (h : readScalar cs = some (item, rest)) :
    (∃ value extent, item = .text value extent) ∨ (∃ value extent, item = .boolean value extent) ∨
      (∃ extent, item = .moment extent) ∨
      ∃ value extent, item = .number value extent ∧ readNumber cs = some (value, rest) := by
  unfold readScalar at h
  split at h
  · cases h
  · split at h
    · obtain ⟨_, _, same⟩ := Option.map_eq_some_iff.mp h
      cases same
      exact .inl ⟨_, _, rfl⟩
    · split at h
      · obtain ⟨_, _, same⟩ := Option.map_eq_some_iff.mp h
        cases same
        exact .inr (.inl ⟨_, _, rfl⟩)
      · split at h
        · obtain ⟨_, _, same⟩ := Option.map_eq_some_iff.mp h
          cases same
          exact .inr (.inl ⟨_, _, rfl⟩)
        · split at h
          · cases h
            exact .inr (.inr (.inl ⟨_, rfl⟩))
          · obtain ⟨_, hnumber, same⟩ := Option.map_eq_some_iff.mp h
            cases same
            exact .inr (.inr (.inr ⟨_, _, rfl, hnumber⟩))

/-- Nothing is found under a name exactly if no entry has it. -/
theorem Entries.find?_eq_none_iff {entries : Entries} {name : String} :
    entries.find? name = none ↔ ∀ entry ∈ entries, entry.1.name ≠ name := by
  simp [find?]

/-- Nothing is found under a name that has been taken out. -/
theorem Entries.find?_remove (entries : Entries) (name : String) :
    (entries.remove name).find? name = none := by
  apply find?_eq_none_iff.mpr
  intro entry hentry same
  simp [Entries.remove, same] at hentry

/-! ## What building does to a table -/

/-- What a change below one key does to a table: it is applied to a new table, to the table under the
key, or to the last of the tables in a row there. -/
inductive Table.Below (made : TableForm) (change : Table → Option Table) (key : Key) (table : Table) :
    Table → Prop
  | new {inner : Table} (free : table.entries.find? key.name = none)
      (changed : change ⟨made, [], none⟩ = some inner) :
      Below made change key table
        { table with entries := table.entries.append key inner.toItem }
  | entered {form : TableForm} {entries : Entries} {extent : Option Extent} {inner : Table}
      (found : table.entries.find? key.name = some (.table form entries extent))
      (enters : made.mayEnter form = true) (changed : change ⟨form, entries, extent⟩ = some inner) :
      Below made change key table
        { table with entries := table.entries.replace key.name inner.toItem }
  | row {front : List Item} {extent : Extent} {form : TableForm} {entries : Entries}
      {row : Option Extent} {inner : Table}
      (found : table.entries.find? key.name =
        some (.tables (front ++ [.table form entries row]) extent))
      (changed : change ⟨form, entries, row⟩ = some inner) :
      Below made change key table
        { table with
          entries := table.entries.replace key.name
            (.tables (front ++ [inner.toItem]) ((inner.extent.map extent.upTo).getD extent)) }

/-- A change at the end of a path is a change below its first key. -/
theorem Table.within_cons_iff {made : TableForm} {change : Table → Option Table} {key : Key}
    {path : List Key} {table next : Table} :
    Table.within made change (key :: path) table = some next ↔
      Table.Below made (Table.within made change path) key table next := by
  constructor
  · intro h
    unfold Table.within at h
    split at h
    · next free =>
      obtain ⟨inner, hinner, rfl⟩ := Option.map_eq_some_iff.mp h
      exact .new free hinner
    · next found =>
      split at h
      · next enters =>
        obtain ⟨inner, hinner, rfl⟩ := Option.map_eq_some_iff.mp h
        exact .entered found enters hinner
      · cases h
    · next rows extent found =>
      split at h
      · next hlast =>
        obtain ⟨inner, hinner, rfl⟩ := Option.map_eq_some_iff.mp h
        obtain ⟨front, rfl⟩ := List.getLast?_eq_some_iff.mp hlast
        rw [List.dropLast_concat]
        exact .row found hinner
      · cases h
    · cases h
  · intro h
    cases h with
    | new free changed => simp [Table.within, free, changed]
    | entered found enters changed => simp [Table.within, found, enters, changed]
    | row found changed => simp [Table.within, found, changed]

/-- What a table comes to when a header opens one in it: one that is new, or that was only on the way
to others, and then comes last. -/
inductive Table.Opened (key : Key) (extent : Extent) (table : Table) : Table → Prop
  | new (free : table.entries.find? key.name = none) :
      Opened key extent table
        { table with entries := table.entries.append key (.table .header [] (some extent)) }
  | implied {inner : Entries} {own : Option Extent}
      (found : table.entries.find? key.name = some (.table .implied inner own)) :
      Opened key extent table
        { table with
          entries := (table.entries.remove key.name).append key
            (.table .header inner (some extent)) }

/-- A header opens a table exactly if the name is free or the table is only implied so far. -/
theorem Table.openTable_eq_some_iff {key : Key} {extent : Extent} {table next : Table} :
    table.openTable key extent = some next ↔ table.Opened key extent next := by
  constructor
  · intro h
    unfold openTable at h
    split at h
    · next free =>
      cases h
      exact .new free
    · next found =>
      cases h
      exact .implied found
    · cases h
  · intro h
    cases h with
    | new free => simp [openTable, free]
    | implied found => simp [openTable, found]

/-- What a table comes to when a header adds a table to a row of it, which may be new. -/
inductive Table.Lengthened (key : Key) (extent : Extent) (table : Table) : Table → Prop
  | new (free : table.entries.find? key.name = none) :
      Lengthened key extent table
        { table with
          entries := table.entries.append key (.tables [.table .header [] (some extent)] extent) }
  | further {rows : List Item} {whole : Extent}
      (found : table.entries.find? key.name = some (.tables rows whole)) :
      Lengthened key extent table
        { table with
          entries := table.entries.replace key.name
            (.tables (rows ++ [.table .header [] (some extent)]) (whole.upTo extent)) }

/-- A header gives a row exactly if the name is free or has an array of tables. -/
theorem Table.openRow_eq_some_iff {key : Key} {extent : Extent} {table next : Table} :
    table.openRow key extent = some next ↔ table.Lengthened key extent next := by
  constructor
  · intro h
    unfold openRow at h
    split at h
    · next free =>
      cases h
      exact .new free
    · next found =>
      cases h
      exact .further found
    · cases h
  · intro h
    cases h with
    | new free => simp [openRow, free]
    | further found => simp [openRow, found]

namespace Invariant

variable {good : Item → Prop} {fine : Entries → Prop}

/-! ## Building a table -/

/-- A change of tables that keeps their contents fine. -/
def Keeps (fine : Entries → Prop) (change : Table → Option Table) : Prop :=
  ∀ table next, fine table.entries → change table = some next → fine next.entries

/-- What is kept at the end of a path is kept in the whole table. -/
theorem within (inv : Invariant good fine) (made : TableForm) {change : Table → Option Table}
    (keeps : Keeps fine change) (path : List Key) : Keeps fine (Table.within made change path) := by
  -- Along the path, what is changed below is put back under its own name, or under a free one.
  induction path with
  | nil => exact keeps
  | cons key path ih =>
    intro table next hfine h
    cases Table.within_cons_iff.mp h with
    | new free changed =>
      apply inv.append _ _ _ hfine free
      exact (inv.table ..).mpr (ih _ _ inv.nil changed)
    | entered found _ changed =>
      have hentries := (inv.table ..).mp (inv.find _ _ _ hfine found)
      apply inv.replace _ _ _ hfine
      exact (inv.table ..).mpr (ih _ _ hentries changed)
    | row found changed =>
      have hrows := (inv.tables ..).mp (inv.find _ _ _ hfine found)
      have hentries := (inv.table ..).mp (hrows _ (List.mem_append_right _ List.mem_cons_self))
      apply inv.replace _ _ _ hfine
      apply (inv.tables ..).mpr
      intro item hitem
      rcases List.mem_append.mp hitem with hold | hnew
      · exact hrows item (List.mem_append_left _ hold)
      · rw [List.mem_singleton.mp hnew]
        exact (inv.table ..).mpr (ih _ _ hentries changed)

/-- Assigning a good item to a key keeps the property. -/
theorem assign (inv : Invariant good fine) (made : TableForm) (path : List Key) (key : Key)
    {item : Item} (hitem : good item) : Keeps fine (Table.assign made path key item) := by
  apply inv.within
  intro table next hfine h
  simp only at h
  split at h
  · cases h
  · obtain ⟨entries, hentries, rfl⟩ := Option.map_eq_some_iff.mp h
    unfold Entries.insert at hentries
    split at hentries
    · next free =>
      cases hentries
      exact inv.append _ _ _ hfine free hitem
    · cases hentries

/-- Opening a table keeps the property. -/
theorem openTable (inv : Invariant good fine) (key : Key) (extent : Extent) :
    Keeps fine (Table.openTable key extent) := by
  intro table next hfine h
  cases Table.openTable_eq_some_iff.mp h with
  | new free => exact inv.append _ _ _ hfine free ((inv.table ..).mpr inv.nil)
  | implied found =>
    have hinner := (inv.table ..).mp (inv.find _ _ _ hfine found)
    -- The table comes last now, so its old entry has been taken out first.
    apply inv.append _ _ _ (inv.remove _ _ hfine) (Entries.find?_remove _ _)
    exact (inv.table ..).mpr hinner

/-- Giving a further row to an array of tables keeps the property. -/
theorem openRow (inv : Invariant good fine) (key : Key) (extent : Extent) :
    Keeps fine (Table.openRow key extent) := by
  intro table next hfine h
  have opened : good (.table .header [] (some extent)) := (inv.table ..).mpr inv.nil
  cases Table.openRow_eq_some_iff.mp h with
  | new free =>
    apply inv.append _ _ _ hfine free
    exact (inv.tables ..).mpr (by simpa using opened)
  | further found =>
    have hrows := (inv.tables ..).mp (inv.find _ _ _ hfine found)
    apply inv.replace _ _ _ hfine
    apply (inv.tables ..).mpr
    intro row hrow
    rcases List.mem_append.mp hrow with hold | hnew
    · exact hrows row hold
    · rw [List.mem_singleton.mp hnew]
      exact opened

/-! ## Reading an item -/

/-- A reader of good items. -/
def Reads (good : Item → Prop) (element : ItemReader) : Prop :=
  ∀ cs item rest, element cs = some (item, rest) → good item

/-- The items of an array are good, if the reader of its elements gives good ones. -/
theorem readItems {element : ItemReader} (helement : Reads good element) (cs : List Char) :
    ∀ items rest, Toml.readItems element cs = some (items, rest) → ∀ item ∈ items, good item := by
  fun_induction Toml.readItems element cs with
  | case1 => intro items rest h; cases h; simp
  | case2 => intro items rest h; cases h
  | case3 _ _ _ _ _ _ hread =>
    intro items rest h
    cases h
    simpa using helement _ _ _ hread
  | case4 _ _ _ _ _ _ _ hread ih =>
    intro items rest h
    obtain ⟨⟨others, _⟩, hothers, same⟩ := Option.map_eq_some_iff.mp h
    cases same
    rintro found (_ | ⟨_, hfound⟩)
    · exact helement _ _ _ hread
    · exact ih _ _ hothers found hfound
  | case5 => intro items rest h; cases h
  | case6 => intro items rest h; cases h

/-- The item of a pair is good, if the reader of items gives good ones. -/
theorem readPair {element : ItemReader} (helement : Reads good element) {cs rest : List Char}
    {pair : Path × Item} (h : Toml.readPair element cs = some (pair, rest)) : good pair.2 := by
  simp only [Toml.readPair, Option.bind_eq_bind, Option.bind_eq_some_iff] at h
  obtain ⟨⟨path, _⟩, -, _, -, ⟨item, _⟩, hitem, same⟩ := h
  cases same
  exact helement _ _ _ hitem

/-- The items of a series of pairs are good, if the reader of items gives good ones. -/
theorem readPairs {element : ItemReader} (helement : Reads good element) (cs : List Char) :
    ∀ pairs rest, Toml.readPairs element cs = some (pairs, rest) → ∀ pair ∈ pairs, good pair.2 := by
  fun_induction Toml.readPairs element cs with
  | case1 => intro pairs rest h; cases h
  | case2 _ _ _ hread =>
    intro pairs rest h
    cases h
    simpa using readPair helement hread
  | case3 _ _ _ hread _ _ _ ih =>
    intro pairs rest h
    obtain ⟨⟨others, _⟩, hothers, same⟩ := Option.map_eq_some_iff.mp h
    cases same
    rintro found (_ | ⟨_, hfound⟩)
    · exact readPair helement hread
    · exact ih _ _ hothers found hfound
  | case4 => intro pairs rest h; cases h
  | case5 => intro pairs rest h; cases h

/-- The items of an inline table are good, if the reader of items gives good ones. -/
theorem readInline {element : ItemReader} (helement : Reads good element) {cs rest : List Char}
    {pairs : List (Path × Item)} (h : Toml.readInline element cs = some (pairs, rest)) :
    ∀ pair ∈ pairs, good pair.2 := by
  unfold Toml.readInline at h
  split at h
  · cases h
    simp
  · exact readPairs helement _ _ _ h

/-- An inline table of good items is fine. -/
theorem inlineEntries? (inv : Invariant good fine) {pairs : List (Path × Item)}
    {entries : Entries} (hpairs : ∀ pair ∈ pairs, good pair.2)
    (h : Toml.inlineEntries? pairs = some entries) : fine entries := by
  obtain ⟨table, htable, rfl⟩ := Option.map_eq_some_iff.mp h
  apply foldlM_keeps pairs _ _ table inv.nil htable
  intro pair hpair inner next hfine hnext
  exact inv.assign .inlineDotted _ _ (hpairs pair hpair) inner next hfine hnext

/-- Every item that is read is good, whatever the depth that is allowed. -/
theorem readItem (inv : Invariant good fine) (depth : Nat) : Reads good (Toml.readItem depth) := by
  induction depth with
  | zero => exact inv.scalar
  | succ depth ih =>
    intro cs item rest h
    unfold Toml.readItem at h
    split at h
    · obtain ⟨⟨items, _⟩, hitems, same⟩ := Option.map_eq_some_iff.mp h
      cases same
      exact inv.array _ _ (readItems ih _ _ _ hitems)
    · obtain ⟨⟨pairs, _⟩, hpairs, h⟩ := Option.bind_eq_some_iff.mp h
      obtain ⟨entries, hentries, same⟩ := Option.map_eq_some_iff.mp h
      cases same
      exact (inv.table ..).mpr (inv.inlineEntries? (readInline ih hpairs) hentries)
    · exact inv.scalar _ _ _ h

/-! ## Reading a document -/

/-- Every item that a statement gives is good. -/
def Gives (good : Item → Prop) : Statement → Prop
  | .assign _ item => good item
  | _ => True

/-- A header gives no item that is not good. -/
theorem readHeader {cs rest : List Char} {statement : Statement}
    (h : Toml.readHeader cs = some (statement, rest)) : Gives good statement := by
  unfold Toml.readHeader at h
  split at h
  · simp only [Option.bind_eq_bind, Option.bind_eq_some_iff] at h
    obtain ⟨_, -, _, -, _, -, same⟩ := h
    cases same
    trivial
  · simp only [Option.bind_eq_bind, Option.bind_eq_some_iff] at h
    obtain ⟨_, -, _, -, same⟩ := h
    cases same
    trivial
  · cases h

/-- A statement that is read gives good items only. -/
theorem readStatement (inv : Invariant good fine) {cs rest : List Char} {statement : Statement}
    (h : Toml.readStatement cs = some (statement, rest)) : Gives good statement := by
  unfold Toml.readStatement at h
  split at h
  · obtain ⟨⟨found, _⟩, hfound, h⟩ := Option.bind_eq_some_iff.mp h
    obtain ⟨_, -, same⟩ := Option.bind_eq_some_iff.mp h
    cases same
    exact readHeader hfound
  · obtain ⟨⟨found, _⟩, hfound, h⟩ := Option.bind_eq_some_iff.mp h
    obtain ⟨_, -, same⟩ := Option.bind_eq_some_iff.mp h
    cases same
    obtain ⟨⟨pair, _⟩, hpair, same⟩ := Option.map_eq_some_iff.mp hfound
    cases same
    exact readPair (inv.readItem _) hpair

/-- A line that is read gives good items only. -/
theorem readLine (inv : Invariant good fine) {cs rest : List Char} {statement : Option Statement}
    (h : Toml.readLine cs = some (statement, rest)) : ∀ found ∈ statement, Gives good found := by
  unfold Toml.readLine at h
  split at h
  · cases h
    simp
  · obtain ⟨_, -, same⟩ := Option.map_eq_some_iff.mp h
    cases same
    simp
  · split at h
    · cases h
      simp
    · obtain ⟨⟨found, _⟩, hfound, same⟩ := Option.map_eq_some_iff.mp h
      cases same
      simpa using inv.readStatement hfound

/-- All statements of a document give good items only. -/
theorem readAll (inv : Invariant good fine) (cs : List Char) :
    ∀ statements, Statement.readAll cs = some statements →
      ∀ statement ∈ statements, Gives good statement := by
  fun_induction Statement.readAll cs with
  | case1 => intro statements h; cases h; simp
  | case2 => intro statements h; cases h
  | case3 _ _ _ _ hline _ ih =>
    intro statements h
    obtain ⟨others, hothers, rfl⟩ := Option.map_eq_some_iff.mp h
    intro statement hstatement
    rcases List.mem_append.mp hstatement with hfirst | hlater
    · exact inv.readLine hline statement (Option.mem_toList.mp hfirst)
    · exact ih others hothers statement hlater
  | case4 => intro statements h; cases h

/-- Adding a statement to a draft keeps the property. -/
theorem draft (inv : Invariant good fine) {statement : Statement}
    (hstatement : Gives good statement) {draft next : Draft} (hfine : fine draft.root.entries)
    (h : draft.add statement = some next) : fine next.root.entries := by
  cases statement with
  | assign path item =>
    obtain ⟨root, hroot, rfl⟩ := Option.map_eq_some_iff.mp h
    apply inv.within .implied _ draft.under draft.root root hfine hroot
    intro table found htable hfound
    obtain ⟨inner, hinner, rfl⟩ := Option.map_eq_some_iff.mp hfound
    exact inv.assign .dotted _ _ hstatement table inner htable hinner
  | header path extent =>
    obtain ⟨root, hroot, rfl⟩ := Option.map_eq_some_iff.mp h
    exact inv.within .implied (inv.openTable _ _) _ _ root hfine hroot
  | rowHeader path extent =>
    obtain ⟨root, hroot, rfl⟩ := Option.map_eq_some_iff.mp h
    exact inv.within .implied (inv.openRow _ _) _ _ root hfine hroot

/-- What all reading and building keeps holds of every document that is read. -/
theorem document (inv : Invariant good fine) {text : List Char} {document : Document}
    (h : Document.parse? text = some document) : fine document.entries := by
  obtain ⟨entries, hentries, rfl⟩ := Option.map_eq_some_iff.mp h
  obtain ⟨statements, hstatements, hbuilt⟩ := Option.bind_eq_some_iff.mp hentries
  obtain ⟨last, hlast, rfl⟩ := Option.map_eq_some_iff.mp hbuilt
  apply foldlM_keeps statements _ _ last inv.nil hlast
  intro statement hstatement state next hfine hnext
  exact inv.draft (inv.readAll _ _ hstatements _ hstatement) hfine hnext

end Invariant

end PongFixture.Toml

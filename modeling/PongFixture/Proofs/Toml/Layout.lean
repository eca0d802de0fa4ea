import Mathlib.Data.List.Forall2
import Mathlib.Data.Option.Defs
import PongFixture.Proofs.Toml.Lines

/-!
# A written document is read as what it writes

A document of tables on one level is built statement by statement. At each one the table that is
being built shows what the lines so far have written: under every name stands what was written
there, as a table if there were dotted keys or a header. The next line finds its place free, since
no path of the document leads to another or through it.
-/

set_option autoImplicit false

namespace PongFixture.Toml

/-- The path that a key in front of all headers defines. -/
def Assignment.path (given : Assignment) : List String := given.table.toList ++ [given.key]

namespace Layout

/-- The paths that are defined. -/
def paths (layout : Layout) : List (List String) :=
  layout.top.map Assignment.path ++ layout.tables.map fun table => [table.1]

/-- Nothing is defined twice, no path leads through what is defined in another way, and the values
can be read. -/
structure Consistent (layout : Layout) : Prop where
  apart : layout.paths.Pairwise fun first second => ¬ first <+: second ∧ ¬ second <+: first
  names : ∀ table ∈ layout.tables, (table.2.map Prod.fst).Nodup
  top : ∀ given ∈ layout.top, given.value.Fits (maxDepth - 1)
  tables : ∀ table ∈ layout.tables, ∀ pair ∈ table.2, pair.2.Fits (maxDepth - 1)

end Layout

/-! ## Looking up entries -/

namespace Entries

variable {entries : Entries} {key : Key} {item : Item} {name : String}

/-- An entry that is added under a free name is found. -/
theorem find?_append_self (free : entries.find? key.name = none) :
    (entries.append key item).find? key.name = some item := by
  unfold find? append at *
  rw [List.find?_append]
  simp only [Option.map_eq_none_iff] at free
  simp [free]

/-- An entry that is added changes nothing under other names. -/
theorem find?_append_other (other : key.name ≠ name) :
    (entries.append key item).find? name = entries.find? name := by
  unfold find? append
  rw [List.find?_append]
  simp [other]

/-- An item that replaces another is found in its place. -/
theorem find?_replace_self (found : (entries.find? name).isSome) :
    (entries.replace name item).find? name = some item := by
  induction entries with
  | nil => cases found
  | cons entry entries ih =>
    by_cases named : entry.1.name = name
    · simp [find?, replace, named]
    · have later : (Entries.find? name entries).isSome := by simpa [find?, named] using found
      simpa [find?, replace, named] using ih later

/-- An item that replaces another changes nothing under other names. -/
theorem find?_replace_other {other : String} (distinct : other ≠ name) :
    (entries.replace name item).find? other = entries.find? other := by
  induction entries with
  | nil => rfl
  | cons entry entries ih =>
    by_cases named : entry.1.name = name
    · have passed : entry.1.name ≠ other := by
        rw [named]
        exact Ne.symm distinct
      simpa [find?, replace, named, distinct.symm, passed] using ih
    · by_cases found : entry.1.name = other
      · simp [find?, replace, found, distinct]
      · simpa [find?, replace, named, found] using ih

end Entries

/-- What is related to a missing value is missing too. -/
theorem eq_none_of_rel {α β : Type} {related : α → β → Prop} {value? : Option β}
    (h : Option.Rel related none value?) : value? = none := by
  cases h
  rfl

/-- What is related to a value that is there is there too. -/
theorem exists_of_rel {α β : Type} {related : α → β → Prop} {value : α} {value? : Option β}
    (h : Option.Rel related (some value) value?) :
    ∃ found, value? = some found ∧ related value found := by
  cases h with
  | some h => exact ⟨_, rfl, h⟩

/-- What is written under a key is what stands under it. -/
theorem Lists.find? {pairs : List (String × Written)} {entries : Entries}
    (lists : Lists pairs entries) (name : String) :
    Option.Rel Written.Denotes (pairs.lookup name) (entries.find? name) := by
  induction pairs generalizing entries with
  | nil =>
    cases lists
    exact .none
  | cons pair pairs ih =>
    cases lists with
    | cons key first rest =>
      by_cases named : name = key.name
      · subst named
        simpa [Entries.find?] using Option.Rel.some first
      · have passed : (name == key.name) = false := by simpa using named
        have other : ¬ key.name = name := Ne.symm named
        rw [List.lookup_cons, passed]
        simpa [Entries.find?, other] using ih rest

/-- A pair and its entry may be added to pairs and their entries. -/
theorem Lists.append {pairs : List (String × Written)} {entries : Entries}
    (lists : Lists pairs entries) (key : Key) {value : Written} {item : Item}
    (denotes : value.Denotes item) :
    Lists (pairs ++ [(key.name, value)]) (entries.append key item) := by
  induction pairs generalizing entries with
  | nil =>
    cases lists
    exact .cons key denotes .nil
  | cons pair pairs ih =>
    cases lists with
    | cons first hfirst rest => exact .cons first hfirst (ih rest)

/-- A name that no pair has is free. -/
theorem Lists.free {pairs : List (String × Written)} {entries : Entries}
    (lists : Lists pairs entries) {name : String} (fresh : name ∉ pairs.map Prod.fst) :
    entries.find? name = none := by
  have hfind := lists.find? name
  have hlookup : pairs.lookup name = none := by
    rw [List.lookup_eq_none_iff]
    intro pair member
    rw [bne_iff_ne]
    rintro rfl
    exact fresh (List.mem_map_of_mem member)
  rw [hlookup] at hfind
  exact eq_none_of_rel hfind

/-! ## What is written under a name -/

namespace Layout

variable {top : List Assignment} {tables : List (String × List (String × Written))}

/-- No plain key has a name that is not the path of an assignment. -/
theorem plain_lookup_eq_none {name : String} (h : ∀ given ∈ top, given.path ≠ [name]) :
    (Layout.mk top tables).plain.lookup name = none := by
  rw [List.lookup_eq_none_iff]
  intro pair member
  obtain ⟨given, hgiven, hpair⟩ := List.mem_filterMap.mp member
  split at hpair
  · next alone =>
    cases hpair
    rw [bne_iff_ne]
    rintro rfl
    exact h given hgiven (by simp [Assignment.path, alone])
  · cases hpair

/-- Where no path begins with a name, nothing is written under it in front of the headers. -/
theorem free_of_head (tables : List (String × List (String × Written))) {name : String}
    (h : ∀ given ∈ top, ¬ [name] <+: given.path) :
    (Layout.mk top tables).plain.lookup name = none ∧ (Layout.mk top tables).dotted name = [] := by
  constructor
  · apply plain_lookup_eq_none
    intro given hgiven alone
    exact h given hgiven (alone ▸ List.prefix_rfl)
  · rw [dotted, List.filterMap_eq_nil_iff]
    intro given hgiven
    rw [if_neg]
    intro under
    exact h given hgiven (by simp [Assignment.path, under])

/-- Where no path is that of a key in a table or leads to the table itself, the table is not a
value, and the key is free in it. -/
theorem free_of_path (tables : List (String × List (String × Written))) {name key : String}
    (h : ∀ given ∈ top, ¬ given.path <+: [name, key] ∧ ¬ [name, key] <+: given.path) :
    (Layout.mk top tables).plain.lookup name = none ∧
      key ∉ ((Layout.mk top tables).dotted name).map Prod.fst := by
  constructor
  · apply plain_lookup_eq_none
    intro given hgiven alone
    exact (h given hgiven).1 (alone ▸ List.prefix_append [name] [key])
  · intro member
    obtain ⟨pair, hmem, rfl⟩ := List.mem_map.mp member
    obtain ⟨given, hgiven, hpair⟩ := List.mem_filterMap.mp hmem
    split at hpair
    · next under =>
      cases hpair
      exact (h given hgiven).1 (by simp [Assignment.path, under])
    · cases hpair

/-- No table is found under a name that no header has. -/
theorem lookup_tables_eq_none {name : String} (h : ∀ table ∈ tables, table.1 ≠ name) :
    tables.lookup name = none := by
  rw [List.lookup_eq_none_iff]
  intro table member
  rw [bne_iff_ne]
  exact (h table member).symm

/-- An assignment in front of all headers adds a plain key, unless it is to a dotted one. -/
theorem plain_append (given : Assignment) :
    (Layout.mk (top ++ [given]) tables).plain =
      (Layout.mk top tables).plain ++
        (if given.table = none then [(given.key, given.value)] else []) := by
  unfold plain
  rw [List.filterMap_append]
  split <;> simp_all

/-- An assignment to a dotted key adds to the table of its first part. -/
theorem dotted_append (given : Assignment) (name : String) :
    (Layout.mk (top ++ [given]) tables).dotted name =
      (Layout.mk top tables).dotted name ++
        (if given.table = some name then [(given.key, given.value)] else []) := by
  unfold dotted
  rw [List.filterMap_append]
  split <;> simp_all

/-- What is written under a name that stands before keys with a point between. -/
theorem value?_of_dotted {name : String}
    (plain : (Layout.mk top []).plain.lookup name = none)
    (begun : (Layout.mk top []).dotted name ≠ []) :
    (Layout.mk top []).value? name = some (.table ((Layout.mk top []).dotted name)) := by
  unfold value?
  rw [plain, List.lookup_nil]
  split <;> simp_all

/-- An assignment to a dotted key adds no plain key. -/
theorem plain_append_dotted (table key : String) (value : Written) :
    (Layout.mk (top ++ [⟨some table, key, value⟩]) []).plain = (Layout.mk top []).plain := by
  simp [plain_append]

/-- An assignment to a dotted key adds to its own table. -/
theorem dotted_append_self (table key : String) (value : Written) :
    (Layout.mk (top ++ [⟨some table, key, value⟩]) []).dotted table =
      (Layout.mk top []).dotted table ++ [(key, value)] := by
  simp [dotted_append]

/-- An assignment to a dotted key adds nothing to other tables. -/
theorem dotted_append_other {table other : String} (distinct : other ≠ table) (key : String)
    (value : Written) :
    (Layout.mk (top ++ [⟨some table, key, value⟩]) []).dotted other =
      (Layout.mk top []).dotted other := by
  simp [dotted_append, distinct.symm]

/-- With an assignment to a dotted key, a table stands under its first part. -/
theorem value?_append_dotted {table : String}
    (plain : (Layout.mk top []).plain.lookup table = none) (key : String) (value : Written) :
    (Layout.mk (top ++ [⟨some table, key, value⟩]) []).value? table =
      some (.table ((Layout.mk top []).dotted table ++ [(key, value)])) := by
  rw [← dotted_append_self]
  apply value?_of_dotted
  · rw [plain_append_dotted, plain]
  · rw [dotted_append_self]
    exact List.append_ne_nil_of_right_ne_nil _ (List.cons_ne_nil _ _)

/-- An assignment to a dotted key changes nothing under other names. -/
theorem value?_append_dotted_other {table other : String} (distinct : other ≠ table)
    (key : String) (value : Written) :
    (Layout.mk (top ++ [⟨some table, key, value⟩]) []).value? other =
      (Layout.mk top []).value? other := by
  unfold value?
  rw [plain_append_dotted, dotted_append_other distinct]

end Layout

/-! ## What a line is read as -/

/-- A line that assigns a value denotes an assignment of that value to its path. -/
theorem Line.Denotes.of_assign {path : List String} {key : String} {value : Written}
    {statement : Statement} (h : (Line.assign path key value).Denotes statement) :
    ∃ (before : List Key) (last : Key) (item : Item), statement = .assign ⟨before, last⟩ item ∧
      before.map Key.name = path ∧ last.name = key ∧ value.Denotes item := by
  cases h with
  | assign names denotes => exact ⟨_, _, _, rfl, names.1, names.2, denotes⟩

/-- A key alone is read as a statement with that key alone. -/
theorem Line.Denotes.of_alone {key : String} {value : Written} {statement : Statement}
    (h : (Line.assign [] key value).Denotes statement) :
    ∃ (last : Key) (item : Item), statement = .assign ⟨[], last⟩ item ∧ last.name = key ∧
      value.Denotes item := by
  obtain ⟨before, last, item, rfl, hbefore, hlast, hitem⟩ := h.of_assign
  obtain rfl := List.map_eq_nil_iff.mp hbefore
  exact ⟨last, item, rfl, hlast, hitem⟩

/-- A key after the name of a table is read as a statement with both. -/
theorem Line.Denotes.of_dotted {table key : String} {value : Written} {statement : Statement}
    (h : (Line.assign [table] key value).Denotes statement) :
    ∃ (name last : Key) (item : Item), statement = .assign ⟨[name], last⟩ item ∧
      name.name = table ∧ last.name = key ∧ value.Denotes item := by
  obtain ⟨before, last, item, rfl, hbefore, hlast, hitem⟩ := h.of_assign
  obtain ⟨name, rest, rfl, hname, hrest⟩ := List.map_eq_cons_iff.mp hbefore
  obtain rfl := List.map_eq_nil_iff.mp hrest
  exact ⟨name, last, item, rfl, hname, hlast, hitem⟩

/-- A line with a header denotes that header. -/
theorem Line.Denotes.of_header {table : String} {statement : Statement}
    (h : (Line.header [] table).Denotes statement) :
    ∃ (key : Key) (extent : Extent), statement = .header ⟨[], key⟩ extent ∧ key.name = table := by
  cases h with
  | header names extent =>
    rename_i found
    obtain ⟨before, key⟩ := found
    obtain rfl : before = [] := List.map_eq_nil_iff.mp names.1
    exact ⟨key, extent, rfl, names.2⟩

/-! ## Building -/

/-- A draft shows what is written so far: under every name stands what is written there, and a table
that was begun by dotted keys has not been given in another way. -/
structure Draft.Shows (draft : Draft) (layout : Layout) : Prop where
  form : draft.root.form = .header
  values : ∀ name,
    Option.Rel Written.Denotes (layout.value? name) (draft.root.entries.find? name)
  dotted : ∀ name, layout.dotted name ≠ [] → ∀ form entries extent,
    draft.root.entries.find? name = some (.table form entries extent) → form = .dotted

section Building

variable {draft next : Draft} {top : List Assignment}
  {tables : List (String × List (String × Written))}

/-- What is changed under one name only is shown where what is written changes under that name. -/
theorem Draft.Shows.update {layout changed : Layout} (shows : draft.Shows layout) (name : String)
    (form : next.root.form = draft.root.form)
    (others : ∀ other, other ≠ name →
      changed.value? other = layout.value? other ∧ changed.dotted other = layout.dotted other ∧
        next.root.entries.find? other = draft.root.entries.find? other)
    (own : Option.Rel Written.Denotes (changed.value? name) (next.root.entries.find? name))
    (dotted : changed.dotted name ≠ [] → ∀ form entries extent,
      next.root.entries.find? name = some (.table form entries extent) → form = .dotted) :
    next.Shows changed := by
  refine ⟨form.trans shows.form, ?_, ?_⟩
  · intro other
    by_cases same : other = name
    · exact same ▸ own
    · obtain ⟨hvalue, -, hfind⟩ := others other same
      rw [hvalue, hfind]
      exact shows.values other
  · intro other hdotted
    by_cases same : other = name
    · subst same
      exact dotted hdotted
    · obtain ⟨-, hkeys, hfind⟩ := others other same
      rw [hfind]
      exact shows.dotted other (hkeys ▸ hdotted)

/-- A key in front of all headers is added to the whole document. -/
theorem Draft.add_alone (under : draft.under = []) (form : draft.root.form = .header) {key : Key}
    (free : draft.root.entries.find? key.name = none) (item : Item) :
    ∃ next, draft.add (.assign ⟨[], key⟩ item) = some next ∧ next.under = [] ∧
      next.root.form = draft.root.form ∧
      next.root.entries = draft.root.entries.append key item := by
  have hform : draft.root.form.isDotted = false := by
    rw [form]
    rfl
  refine ⟨⟨Table.reaching item ⟨draft.root.form, draft.root.entries.append key item,
    draft.root.extent⟩, []⟩, ?_, rfl, rfl, rfl⟩
  unfold Draft.add
  simp only [under, Table.within, assign_nil .dotted hform free, Option.map_some]

/-- The first key after the name of a table and a point begins that table. -/
theorem Draft.add_first (under : draft.under = []) {table : Key}
    (free : draft.root.entries.find? table.name = none) (key : Key) (item : Item) :
    ∃ next, draft.add (.assign ⟨[table], key⟩ item) = some next ∧ next.under = [] ∧
      next.root.form = draft.root.form ∧
      next.root.entries =
        draft.root.entries.append table (.table .dotted [(key, item)] none) := by
  refine ⟨⟨Table.reaching item ⟨draft.root.form,
    draft.root.entries.append table (.table .dotted [(key, item)] none), draft.root.extent⟩, []⟩,
    ?_, rfl, rfl, rfl⟩
  unfold Draft.add
  simp only [under, Table.within, Table.assign, free]
  rfl

/-- A further key after the name of a table and a point is added to that table. -/
theorem Draft.add_further (under : draft.under = []) {table key : Key} {entries : Entries}
    {extent : Option Extent}
    (found : draft.root.entries.find? table.name = some (.table .dotted entries extent))
    (free : entries.find? key.name = none) (item : Item) :
    ∃ next, draft.add (.assign ⟨[table], key⟩ item) = some next ∧ next.under = [] ∧
      next.root.form = draft.root.form ∧
      next.root.entries =
        draft.root.entries.replace table.name
          (.table .dotted (entries.append key item) extent) := by
  refine ⟨⟨Table.reaching item ⟨draft.root.form, draft.root.entries.replace table.name
    (.table .dotted (entries.append key item) extent), draft.root.extent⟩, []⟩, ?_, rfl, rfl, rfl⟩
  unfold Draft.add
  simp only [under, Table.within, Table.assign, found, TableForm.mayEnter, Entries.insert, free]
  rfl

/-- A header opens its table. -/
theorem Draft.add_header {key : Key} (free : draft.root.entries.find? key.name = none)
    (extent : Extent) :
    ∃ next, draft.add (.header ⟨[], key⟩ extent) = some next ∧ next.under = [key] ∧
      next.root.form = draft.root.form ∧
      next.root.entries = draft.root.entries.append key (.table .header [] (some extent)) := by
  refine ⟨⟨⟨draft.root.form, draft.root.entries.append key (.table .header [] (some extent)),
    draft.root.extent⟩, [key]⟩, ?_, rfl, rfl, rfl⟩
  unfold Draft.add
  simp only [Table.within, Table.openTable, free]
  rfl

/-- A key under a header is added to the table of the header. -/
theorem Draft.add_under {table key : Key} (under : draft.under = [table]) {entries : Entries}
    {extent : Option Extent}
    (found : draft.root.entries.find? table.name = some (.table .header entries extent))
    (free : entries.find? key.name = none) (item : Item) :
    ∃ next extent, draft.add (.assign ⟨[], key⟩ item) = some next ∧ next.under = [table] ∧
      next.root.form = draft.root.form ∧
      next.root.entries =
        draft.root.entries.replace table.name
          (.table .header (entries.append key item) extent) := by
  refine ⟨⟨⟨draft.root.form, draft.root.entries.replace table.name
    (Table.reaching item ⟨.header, entries.append key item, extent⟩).toItem, draft.root.extent⟩,
    [table]⟩, _, ?_, rfl, rfl, rfl⟩
  have hassign : Table.assign .dotted [] key item ⟨.header, entries, extent⟩ =
      some ⟨.header, entries.append key item, extent⟩ := assign_nil .dotted rfl free item
  unfold Draft.add
  simp only [under, Table.within, found, TableForm.mayEnter, hassign]
  rfl

/-! ### One line after another -/

/-- A key in front of all headers, without the name of a table. -/
theorem Draft.Shows.add_plain (shows : draft.Shows ⟨top, []⟩) (under : draft.under = [])
    {key : String} {value : Written} (free : ∀ given ∈ top, ¬ [key] <+: given.path)
    {statement : Statement} (denotes : (Line.assign [] key value).Denotes statement) :
    ∃ next, draft.add statement = some next ∧ next.under = [] ∧
      next.Shows ⟨top ++ [⟨none, key, value⟩], []⟩ := by
  obtain ⟨hplain, hdotted⟩ := Layout.free_of_head [] free
  obtain ⟨last, item, rfl, rfl, hitem⟩ := denotes.of_alone
  have hvalue : (Layout.mk top []).value? last.name = none := by
    simp only [Layout.value?, hplain, hdotted, List.lookup_nil]
  have hfree : draft.root.entries.find? last.name = none :=
    eq_none_of_rel (hvalue ▸ shows.values last.name)
  obtain ⟨next, hadd, hunder, hform, hentries⟩ := draft.add_alone under shows.form hfree item
  refine ⟨next, hadd, hunder, ?_⟩
  apply shows.update last.name hform
  · intro other distinct
    have passed : (other == last.name) = false := beq_false_of_ne distinct
    refine ⟨?_, ?_, ?_⟩
    · simp [Layout.value?, Layout.plain_append, Layout.dotted_append, List.lookup_append, passed,
        List.lookup_cons]
    · simp [Layout.dotted_append]
    · rw [hentries]
      exact Entries.find?_append_other (Ne.symm distinct)
  · have hnew : (Layout.mk (top ++ [⟨none, last.name, value⟩]) []).value? last.name =
        some value := by
      simp [Layout.value?, Layout.plain_append, List.lookup_append, hplain]
    rw [hnew, hentries, Entries.find?_append_self hfree]
    exact .some hitem
  · intro some_key
    simp [Layout.dotted_append, hdotted] at some_key

/-- Once the table of a dotted key stands with what is written in it, all is shown. -/
theorem Draft.Shows.update_dotted (shows : draft.Shows ⟨top, []⟩) {table key : String}
    {value : Written} (plain : (Layout.mk top []).plain.lookup table = none)
    (form : next.root.form = draft.root.form)
    (others : ∀ other, other ≠ table →
      next.root.entries.find? other = draft.root.entries.find? other)
    {entries : Entries} {extent : Option Extent}
    (own : next.root.entries.find? table = some (.table .dotted entries extent))
    (lists : Lists ((Layout.mk top []).dotted table ++ [(key, value)]) entries) :
    next.Shows ⟨top ++ [⟨some table, key, value⟩], []⟩ := by
  apply shows.update table form
  · intro other distinct
    exact ⟨Layout.value?_append_dotted_other distinct key value,
      Layout.dotted_append_other distinct key value, others other distinct⟩
  · rw [Layout.value?_append_dotted plain, own]
    exact .some (.table .dotted extent lists)
  · intro _ form entries extent hfind
    rw [own] at hfind
    cases hfind
    rfl

/-- A key in front of all headers, after the name of a table and a point. -/
theorem Draft.Shows.add_dotted (shows : draft.Shows ⟨top, []⟩) (under : draft.under = [])
    {table key : String} {value : Written}
    (free : ∀ given ∈ top, ¬ given.path <+: [table, key] ∧ ¬ [table, key] <+: given.path)
    {statement : Statement} (denotes : (Line.assign [table] key value).Denotes statement) :
    ∃ next, draft.add statement = some next ∧ next.under = [] ∧
      next.Shows ⟨top ++ [⟨some table, key, value⟩], []⟩ := by
  obtain ⟨hplain, hfresh⟩ := Layout.free_of_path [] free
  obtain ⟨name, last, item, rfl, rfl, rfl, hitem⟩ := denotes.of_dotted
  cases hkeys : (Layout.mk top []).dotted name.name with
  | nil =>
    have hnone : (Layout.mk top []).value? name.name = none := by
      simp only [Layout.value?, hplain, hkeys, List.lookup_nil]
    have hfree : draft.root.entries.find? name.name = none :=
      eq_none_of_rel (hnone ▸ shows.values name.name)
    obtain ⟨next, hadd, hunder, hform, hentries⟩ := draft.add_first under hfree last item
    refine ⟨next, hadd, hunder, ?_⟩
    apply shows.update_dotted hplain hform
    · intro other distinct
      rw [hentries]
      exact Entries.find?_append_other (Ne.symm distinct)
    · rw [hentries, Entries.find?_append_self hfree]
    · rw [hkeys]
      exact .cons last hitem .nil
  | cons first later =>
    have begun : (Layout.mk top []).dotted name.name ≠ [] := hkeys ▸ List.cons_ne_nil _ _
    have htable := shows.values name.name
    rw [Layout.value?_of_dotted hplain begun] at htable
    obtain ⟨found, hfind, hdenotes⟩ := exists_of_rel htable
    cases hdenotes with
    | table form extent lists =>
      rename_i entries
      obtain rfl : form = .dotted := shows.dotted name.name begun form entries extent hfind
      obtain ⟨next, hadd, hunder, hform, hentries⟩ :=
        draft.add_further under hfind (lists.free hfresh) item
      refine ⟨next, hadd, hunder, ?_⟩
      apply shows.update_dotted hplain hform
      · intro other distinct
        rw [hentries]
        exact Entries.find?_replace_other distinct
      · rw [hentries]
        exact Entries.find?_replace_self (hfind ▸ rfl)
      · exact lists.append last hitem

/-- The keys in front of all headers. -/
theorem Draft.Shows.run_top {rest : List Assignment} {statements : List Statement}
    (shows : draft.Shows ⟨top, []⟩) (under : draft.under = [])
    (apart : (Layout.mk (top ++ rest) tables).paths.Pairwise fun first second =>
      ¬ first <+: second ∧ ¬ second <+: first)
    (denotes : List.Forall₂ Line.Denotes
      (rest.map fun given => .assign given.table.toList given.key given.value) statements) :
    ∃ last, statements.foldlM Draft.add draft = some last ∧ last.under = [] ∧
      last.Shows ⟨top ++ rest, []⟩ := by
  induction rest generalizing draft top statements with
  | nil =>
    cases denotes
    exact ⟨draft, rfl, under, by rwa [List.append_nil]⟩
  | cons given rest ih =>
    cases denotes with
    | cons hfirst hrest =>
      have clear : ∀ old ∈ top, ¬ old.path <+: given.path ∧ ¬ given.path <+: old.path := by
        intro old member
        unfold Layout.paths at apart
        rw [List.map_append, List.append_assoc] at apart
        exact (List.pairwise_append.mp apart).2.2 _ (List.mem_map_of_mem member) _
          List.mem_cons_self
      obtain ⟨next, hnext, hunder, hshows⟩ : ∃ next, draft.add _ = some next ∧ next.under = [] ∧
          next.Shows ⟨top ++ [given], []⟩ := by
        obtain ⟨table, key, value⟩ := given
        cases table with
        | none => exact shows.add_plain under (fun old member => (clear old member).2) hfirst
        | some table => exact shows.add_dotted under clear hfirst
      rw [List.append_cons] at apart ⊢
      obtain ⟨last, hlast, done⟩ := ih hshows hunder apart hrest
      refine ⟨last, ?_, done⟩
      rw [List.foldlM_cons, hnext]
      exact hlast

/-- A draft shows what is written so far, and its last header is that of a table. -/
structure Draft.ShowsUnder (draft : Draft) (layout : Layout) (table : String) : Prop where
  shows : draft.Shows layout
  under : ∃ key : Key, draft.under = [key] ∧ key.name = table
  header : ∀ form entries extent,
    draft.root.entries.find? table = some (.table form entries extent) → form = .header

/-- What is written under a name when its table has got a header. -/
theorem Layout.value?_of_header {name : String}
    (plain : (Layout.mk top tables).plain.lookup name = none)
    (fresh : tables.lookup name = none) (pairs : List (String × Written)) :
    (Layout.mk top (tables ++ [(name, pairs)])).value? name = some (.table pairs) := by
  have hplain : (Layout.mk top (tables ++ [(name, pairs)])).plain.lookup name = none := plain
  have htables : (tables ++ [(name, pairs)]).lookup name = some pairs := by
    rw [List.lookup_append, fresh]
    simp
  unfold Layout.value?
  rw [hplain, htables]

/-- A further header changes nothing under other names. -/
theorem Layout.value?_of_other_header {name other : String} (distinct : other ≠ name)
    (pairs : List (String × Written)) :
    (Layout.mk top (tables ++ [(name, pairs)])).value? other =
      (Layout.mk top tables).value? other := by
  have htables : (tables ++ [(name, pairs)]).lookup other = tables.lookup other := by
    rw [List.lookup_append]
    simp [List.lookup_cons, beq_false_of_ne distinct]
  unfold Layout.value?
  rw [htables]
  rfl

/-- A header opens its table. -/
theorem Draft.Shows.add_header (shows : draft.Shows ⟨top, tables⟩) {table : String}
    (free : ∀ given ∈ top, ¬ [table] <+: given.path)
    (fresh : ∀ other ∈ tables, other.1 ≠ table) {statement : Statement}
    (denotes : (Line.header [] table).Denotes statement) :
    ∃ next, draft.add statement = some next ∧
      next.ShowsUnder ⟨top, tables ++ [(table, [])]⟩ table := by
  obtain ⟨hplain, hdotted⟩ := Layout.free_of_head tables free
  have htables := Layout.lookup_tables_eq_none fresh
  obtain ⟨last, extent, rfl, rfl⟩ := denotes.of_header
  have hvalue : (Layout.mk top tables).value? last.name = none := by
    simp only [Layout.value?, hplain, hdotted, htables]
  have hfree : draft.root.entries.find? last.name = none :=
    eq_none_of_rel (hvalue ▸ shows.values last.name)
  obtain ⟨next, hadd, hunder, hform, hentries⟩ := draft.add_header hfree extent
  have hself : next.root.entries.find? last.name = some (.table .header [] (some extent)) := by
    rw [hentries, Entries.find?_append_self hfree]
  refine ⟨next, hadd, ?_, ⟨last, hunder, rfl⟩, ?_⟩
  · apply shows.update last.name hform
    · intro other distinct
      rw [hentries]
      exact ⟨Layout.value?_of_other_header distinct [], rfl,
        Entries.find?_append_other (Ne.symm distinct)⟩
    · rw [Layout.value?_of_header hplain htables, hself]
      exact .some (.table .header (some extent) .nil)
    · intro some_key
      exact absurd hdotted some_key
  · intro form entries extent hfind
    rw [hself] at hfind
    cases hfind
    rfl

/-- A key under the last header is added to its table. -/
theorem Draft.ShowsUnder.add {table key : String} {pairs : List (String × Written)}
    {value : Written} (shows : draft.ShowsUnder ⟨top, tables ++ [(table, pairs)]⟩ table)
    (free : ∀ given ∈ top, ¬ [table] <+: given.path)
    (fresh : ∀ other ∈ tables, other.1 ≠ table) (unused : key ∉ pairs.map Prod.fst)
    {statement : Statement} (denotes : (Line.assign [] key value).Denotes statement) :
    ∃ next, draft.add statement = some next ∧
      next.ShowsUnder ⟨top, tables ++ [(table, pairs ++ [(key, value)])]⟩ table := by
  obtain ⟨hplain, hdotted⟩ := Layout.free_of_head tables free
  have htables := Layout.lookup_tables_eq_none fresh
  obtain ⟨hshows, ⟨header, hunder, rfl⟩, hheader⟩ := shows
  obtain ⟨last, item, rfl, rfl, hitem⟩ := denotes.of_alone
  have htable := hshows.values header.name
  rw [Layout.value?_of_header hplain htables] at htable
  obtain ⟨found, hfind, hdenotes⟩ := exists_of_rel htable
  cases hdenotes with
  | table form extent lists =>
    rename_i entries
    obtain rfl : form = .header := hheader form entries extent hfind
    obtain ⟨next, reached, hadd, hnext, hform, hentries⟩ :=
      draft.add_under hunder hfind (lists.free unused) item
    have hself : next.root.entries.find? header.name =
        some (.table .header (entries.append last item) reached) := by
      rw [hentries]
      exact Entries.find?_replace_self (hfind ▸ rfl)
    refine ⟨next, hadd, ?_, ⟨header, hnext, rfl⟩, ?_⟩
    · apply hshows.update header.name hform
      · intro other distinct
        rw [hentries, Layout.value?_of_other_header distinct,
          Layout.value?_of_other_header distinct]
        exact ⟨rfl, rfl, Entries.find?_replace_other distinct⟩
      · rw [Layout.value?_of_header hplain htables, hself]
        exact .some (.table .header reached (lists.append last hitem))
      · intro some_key
        exact absurd hdotted some_key
    · intro form entries extent hfind
      rw [hself] at hfind
      cases hfind
      rfl

/-- The keys under a header. -/
theorem Draft.ShowsUnder.run {table : String} {pairs rest : List (String × Written)}
    {statements : List Statement}
    (shows : draft.ShowsUnder ⟨top, tables ++ [(table, pairs)]⟩ table)
    (free : ∀ given ∈ top, ¬ [table] <+: given.path)
    (fresh : ∀ other ∈ tables, other.1 ≠ table) (names : ((pairs ++ rest).map Prod.fst).Nodup)
    (denotes : List.Forall₂ Line.Denotes (rest.map fun pair => .assign [] pair.1 pair.2)
      statements) :
    ∃ last, statements.foldlM Draft.add draft = some last ∧
      last.ShowsUnder ⟨top, tables ++ [(table, pairs ++ rest)]⟩ table := by
  induction rest generalizing draft pairs statements with
  | nil =>
    cases denotes
    exact ⟨draft, rfl, by rwa [List.append_nil]⟩
  | cons pair rest ih =>
    cases denotes with
    | cons hfirst hrest =>
      have unused : pair.1 ∉ pairs.map Prod.fst := by
        intro member
        rw [List.map_append, List.nodup_append] at names
        exact names.2.2 _ member _ List.mem_cons_self rfl
      obtain ⟨next, hnext, hshows⟩ := shows.add free fresh unused hfirst
      rw [List.append_cons pairs pair rest] at names ⊢
      obtain ⟨last, hlast, done⟩ := ih hshows names hrest
      refine ⟨last, ?_, done⟩
      rw [List.foldlM_cons, hnext]
      exact hlast

/-- What is related to a list in two parts has two parts itself. -/
theorem forall₂_append_left {α β : Type} {related : α → β → Prop} {first second : List α}
    {others : List β} (h : List.Forall₂ related (first ++ second) others) :
    ∃ before after, others = before ++ after ∧ List.Forall₂ related first before ∧
      List.Forall₂ related second after := by
  refine ⟨others.take first.length, others.drop first.length,
    (List.take_append_drop first.length others).symm, ?_, ?_⟩
  · exact (List.forall₂_take_append others first second h.flip).flip
  · exact (List.forall₂_drop_append others first second h.flip).flip

/-- The tables under headers. -/
theorem Draft.Shows.run_tables {rest : List (String × List (String × Written))}
    {statements : List Statement} (shows : draft.Shows ⟨top, tables⟩)
    (consistent : (Layout.mk top (tables ++ rest)).Consistent)
    (denotes : List.Forall₂ Line.Denotes (rest.flatMap Layout.tableLines) statements) :
    ∃ last, statements.foldlM Draft.add draft = some last ∧ last.Shows ⟨top, tables ++ rest⟩ := by
  induction rest generalizing draft tables statements with
  | nil =>
    cases denotes
    exact ⟨draft, rfl, by rwa [List.append_nil]⟩
  | cons table rest ih =>
    obtain ⟨name, pairs⟩ := table
    rw [List.flatMap_cons] at denotes
    obtain ⟨own, after, rfl, hown, hafter⟩ := forall₂_append_left denotes
    have apart := consistent.apart
    unfold Layout.paths at apart
    rw [List.pairwise_append] at apart
    have free : ∀ given ∈ top, ¬ [name] <+: given.path := by
      intro given member
      exact (apart.2.2 _ (List.mem_map_of_mem member) [name] (by simp)).2
    have fresh : ∀ other ∈ tables, other.1 ≠ name := by
      rintro other member rfl
      have hapart := apart.2.1
      rw [List.map_append] at hapart
      have distinct := (List.pairwise_append.mp hapart).2.2 [other.1]
        (List.mem_map_of_mem member) [other.1] List.mem_cons_self
      exact distinct.1 (List.prefix_refl _)
    cases hown with
    | cons hheader hpairs =>
      obtain ⟨opened, hopened, hunder⟩ := shows.add_header free fresh hheader
      obtain ⟨next, hnext, hshows⟩ := hunder.run free fresh
        (consistent.names (name, pairs) (by simp)) hpairs
      rw [List.append_cons] at consistent ⊢
      obtain ⟨last, hlast, done⟩ := ih hshows.shows consistent hafter
      refine ⟨last, ?_, done⟩
      rw [List.cons_append, List.foldlM_cons, hopened]
      show List.foldlM Draft.add opened (_ ++ after) = _
      rw [List.foldlM_append, hnext]
      exact hlast

end Building

namespace Layout

variable {layout : Layout}

/-- Every line of a consistent layout can be read. -/
theorem Consistent.fits (consistent : layout.Consistent) : ∀ line ∈ layout.lines, line.Fits := by
  intro line member
  rcases List.mem_append.mp member with htop | hunder
  · obtain ⟨given, hgiven, rfl⟩ := List.mem_map.mp htop
    refine ⟨?_, consistent.top given hgiven⟩
    cases given.table with
    | none =>
      show 0 < maxDepth - 1
      decide
    | some table =>
      show 1 < maxDepth - 1
      decide
  · obtain ⟨table, htable, hline⟩ := List.mem_flatMap.mp hunder
    rcases List.mem_cons.mp hline with rfl | hline
    · show 0 < maxDepth - 1
      decide
    · obtain ⟨pair, hpair, rfl⟩ := List.mem_map.mp hline
      exact ⟨by decide, consistent.tables table htable pair hpair⟩

/-- Statements that the lines of a consistent layout denote build a document that shows it. -/
theorem ofStatements?_of_denotes (consistent : layout.Consistent) {statements : List Statement}
    (denotes : List.Forall₂ Line.Denotes layout.lines statements) :
    ∃ entries, Entries.ofStatements? statements = some entries ∧
      ∀ name, Option.Rel Written.Denotes (layout.value? name) (entries.find? name) := by
  obtain ⟨top, tables⟩ := layout
  obtain ⟨before, after, rfl, hbefore, hafter⟩ := forall₂_append_left denotes
  have nothing : Draft.Shows ⟨Table.root, []⟩ ⟨[], []⟩ :=
    ⟨rfl, fun _ => .none, fun _ some_key => absurd rfl some_key⟩
  obtain ⟨middle, hmiddle, -, hshows⟩ := nothing.run_top rfl consistent.apart hbefore
  obtain ⟨last, hlast, done⟩ := hshows.run_tables consistent hafter
  refine ⟨last.root.entries, ?_, done.values⟩
  have hrun : (before ++ after).foldlM Draft.add ⟨Table.root, []⟩ = some last := by
    rw [List.foldlM_append, hmiddle]
    exact hlast
  rw [Entries.ofStatements?, hrun]
  rfl

/-- What is written does not begin with a mark. -/
theorem skipMark_print (layout : Layout) : skipMark layout.print = layout.print := by
  unfold print
  cases layout.lines with
  | nil => rfl
  | cons line lines =>
    obtain ⟨c, later, hcons, other⟩ : ∃ c later,
        (line :: lines).flatMap Line.print = c :: later ∧ c ≠ byteOrderMark := by
      cases line with
      | assign path key value =>
        obtain ⟨c, later, hcons, starts⟩ := writePath_cons path key
          (assignment ++ (value.print ++ '\n' :: lines.flatMap Line.print))
        refine ⟨c, later, ?_, startsKey_ne starts (by decide)⟩
        rw [← hcons]
        simp [Line.print]
      | header path key => exact ⟨'[', _, rfl, by decide⟩
    rw [hcons, skipMark, if_neg other]

/-- A document is read back with what it writes under every name. -/
theorem parse?_print (consistent : layout.Consistent) :
    ∃ document, Document.parse? layout.print = some document ∧
      ∀ name, Option.Rel Written.Denotes (layout.value? name) (document.entries.find? name) := by
  obtain ⟨statements, hread, denotes⟩ := readAll_print consistent.fits
  obtain ⟨entries, hentries, shown⟩ := ofStatements?_of_denotes consistent denotes
  refine ⟨⟨layout.print, entries⟩, ?_, shown⟩
  have hall : Statement.readAll layout.print = some statements := hread
  unfold Document.parse?
  rw [skipMark_print, hall, Option.bind_some, hentries]
  rfl

end Layout

end PongFixture.Toml

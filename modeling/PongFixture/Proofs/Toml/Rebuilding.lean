import PongFixture.Proofs.Toml.Edit

/-!
# An edited document is built in the same way

Building a table goes with editing (`Edits`): the same steps on what is edited give what the result
becomes, and the texts that an item brings to a table are counted there. The latter needs that names are
distinct, since an item that is put in place of two would be counted twice.

What holds of one change of a table holds of the same change at the end of a path, and so of what a
statement does to a draft and of the table that all statements build.
-/

set_option autoImplicit false

namespace PongFixture.Toml

/-! ## Tables -/

/-- A table of the edited document. -/
def Table.edit (swap : Swap) (table : Table) : Table :=
  ⟨table.form, table.entries.edit swap, table.extent.map swap.moveExtent⟩

/-- A table that is being built: what is in it is placed, and it has no stretch of its own but that of
a header. -/
structure Table.Open (swap : Swap) (begins : Nat → Prop) (table : Table) : Prop where
  entries : table.entries.Placed swap begins
  extent : ∀ {extent : Extent}, table.extent = some extent →
    table.form = .header ∧ swap.Clear extent ∧ begins extent.start

section Tables

variable {swap : Swap} {begins : Nat → Prop}

/-- An edited table as an item is the edited item. -/
@[simp] theorem Table.edit_toItem (table : Table) :
    (table.edit swap).toItem = table.toItem.edit swap := by
  simp [Table.edit, Table.toItem]

/-- The texts of a table as an item are those of its entries. -/
@[simp] theorem Table.count_toItem (table : Table) :
    table.toItem.count swap = table.entries.count swap := by
  simp [Table.toItem]

/-- An empty table is open. -/
theorem Table.open_empty (form : TableForm) : (Table.mk form [] none).Open swap begins :=
  ⟨.nil, fun h => nomatch h⟩

/-- A table that is open is placed as an item. -/
theorem Table.Open.toItem {table : Table} (h : table.Open swap begins) :
    table.toItem.Placed swap begins := by
  obtain ⟨form, entries, extent⟩ := table
  have keys := fun entry hentry => (h.entries entry hentry).1
  have each := fun entry hentry => (h.entries entry hentry).2
  cases extent with
  | none => exact .bare keys each
  | some extent =>
    obtain ⟨hform, clear, starts⟩ := h.extent rfl
    simp only at hform
    subst hform
    exact .header keys each clear starts

/-- A table that may be entered is open. -/
theorem Item.Placed.open {form : TableForm} {entries : Entries} {extent : Option Extent}
    (placed : (Item.table form entries extent).Placed swap begins) (h : form ≠ .inline) :
    (Table.mk form entries extent).Open swap begins := by
  refine ⟨placed.entries, fun hextent => ?_⟩
  cases placed with
  | inline => exact absurd rfl h
  | header _ _ clear starts =>
    cases hextent
    exact ⟨rfl, clear, starts⟩
  | bare => cases hextent

/-- No inline table may be entered. -/
theorem TableForm.ne_inline_of_mayEnter {made form : TableForm} (h : made.mayEnter form = true) :
    form ≠ .inline := by
  rintro rfl
  cases made <;> simp [TableForm.mayEnter, TableForm.isInline] at h

/-- A change of tables that goes with editing, as another change of what is edited. It adds some texts,
and keeps a table open under a condition on what it brings. -/
structure Edits (swap : Swap) (begins : Nat → Prop) (change edited : Table → Option Table)
    (added : Nat) (brought : Prop) : Prop where
  edit : ∀ {table next}, change table = some next →
    edited (table.edit swap) = some (next.edit swap)
  form : ∀ {table next}, change table = some next → next.form = table.form
  extent : ∀ {table next}, change table = some next → next.extent.isSome = table.extent.isSome
  count : ∀ {table next}, table.entries.Distinct → change table = some next →
    next.entries.count swap = table.entries.count swap + added
  opened : ∀ {table next}, brought → table.Open swap begins → change table = some next →
    next.Open swap begins

variable {change edited : Table → Option Table} {added : Nat} {brought : Prop}

/-- A table with other entries that are placed is open as it was. -/
theorem Table.Open.withEntries {table : Table} (h : table.Open swap begins) {entries : Entries}
    (hentries : entries.Placed swap begins) :
    ({ table with entries } : Table).Open swap begins := ⟨hentries, h.extent⟩

/-- A change below a key goes with editing as the change does. -/
theorem Edits.below (h : Edits swap begins change edited added brought) (made : TableForm)
    (key : Key) {table next : Table} (below : Table.Below made change key table next) :
    Table.Below made edited (swap.editKey key) (table.edit swap) (next.edit swap) := by
  have hfind := Entries.find?_edit swap table.entries key.name
  cases below with
  | new free changed =>
    rw [free] at hfind
    have hnew : Table.Below made edited (swap.editKey key) (table.edit swap) _ :=
      .new hfind (h.edit changed)
    rw [Table.edit_toItem] at hnew
    simp only [Table.edit, Entries.edit_append] at hnew ⊢
    exact hnew
  | entered found enters changed =>
    rw [found, Option.map_some, Item.edit_table] at hfind
    have hentered : Table.Below made edited (swap.editKey key) (table.edit swap) _ :=
      .entered hfind enters (h.edit changed)
    rw [Table.edit_toItem] at hentered
    simp only [Table.edit, Entries.edit_replace] at hentered ⊢
    exact hentered
  | @row _ extent _ _ _ inner found changed =>
    rw [found, Option.map_some, Item.edit_tables, List.map_append, List.map_singleton,
      Item.edit_table] at hfind
    have hrow : Table.Below made edited (swap.editKey key) (table.edit swap) _ :=
      .row hfind (h.edit changed)
    have hwhole : ((inner.edit swap).extent.map (swap.moveExtent extent).upTo).getD
          (swap.moveExtent extent) =
        swap.moveExtent ((inner.extent.map extent.upTo).getD extent) := by
      unfold Table.edit
      cases inner.extent <;> rfl
    rw [Table.edit_toItem, hwhole] at hrow
    simp only [Table.edit, Entries.edit_replace, Item.edit_tables, List.map_append,
      List.map_singleton] at hrow ⊢
    exact hrow

/-- A change below a key adds as many texts as the change. -/
theorem Edits.count_below (h : Edits swap begins change edited added brought) {made : TableForm}
    {key : Key} {table next : Table} (distinct : table.entries.Distinct)
    (below : Table.Below made change key table next) :
    next.entries.count swap = table.entries.count swap + added := by
  cases below with
  | new free changed =>
    have hinner := h.count .nil changed
    rw [Entries.count_nil] at hinner
    simp only [Entries.count_append, Table.count_toItem]
    omega
  | @entered _ _ _ inner found enters changed =>
    have hinner := h.count (Item.distinct_table.mp (distinct.item found)) changed
    have hreplace := Entries.count_replace swap distinct.names found inner.toItem
    rw [Table.count_toItem, Item.count_table] at hreplace
    simp only at hinner ⊢
    omega
  | @row front extent form entries row inner found changed =>
    have hrows := Item.distinct_tables.mp (distinct.item found)
    have hlast := Item.distinct_table.mp (hrows _ (List.mem_append_right _ List.mem_cons_self))
    have hinner := h.count hlast changed
    have hreplace := Entries.count_replace swap distinct.names found
      (.tables (front ++ [inner.toItem]) ((inner.extent.map extent.upTo).getD extent))
    simp only [Item.count_tables, List.map_append, List.map_singleton, List.sum_append,
      List.sum_singleton, Table.count_toItem, Item.count_table] at hreplace
    simp only at hinner ⊢
    omega

/-- A change below a key keeps a table open as the change does. -/
theorem Edits.opened_below (h : Edits swap begins change edited added brought) {made : TableForm}
    {key : Key} {table next : Table} (hbrought : brought) (hkey : swap.Beside key.extent)
    (hopen : table.Open swap begins) (below : Table.Below made change key table next) :
    next.Open swap begins := by
  cases below with
  | new free changed =>
    have hinner := h.opened hbrought (Table.open_empty made) changed
    exact hopen.withEntries (hopen.entries.append hkey hinner.toItem)
  | entered found enters changed =>
    have hfound := (hopen.entries.item found).open (TableForm.ne_inline_of_mayEnter enters)
    have hinner := h.opened hbrought hfound changed
    exact hopen.withEntries (hopen.entries.replace _ hinner.toItem)
  | @row front extent form entries row inner found changed =>
    have hlast : Item.table form entries row ∈ front ++ [.table form entries row] :=
      List.mem_append_right _ List.mem_cons_self
    cases hopen.entries.item found with
    | tables each headed clear starts =>
      obtain ⟨_, own, same⟩ := headed _ hlast
      cases same
      have hinner := h.opened hbrought ((each _ hlast).open (by decide)) changed
      obtain ⟨stop, hstop⟩ := Option.isSome_iff_exists.mp (h.extent changed)
      have hform : inner.form = .header := h.form changed
      have hwhole := hinner.extent hstop
      refine hopen.withEntries (hopen.entries.replace _ ?_)
      rw [hstop]
      refine .tables ?_ ?_ ⟨clear.1, hwhole.2.1.2⟩ starts
      · intro item hitem
        rcases List.mem_append.mp hitem with hold | hnew
        · exact each item (List.mem_append_left _ hold)
        · rw [List.mem_singleton.mp hnew]
          exact hinner.toItem
      · intro item hitem
        rcases List.mem_append.mp hitem with hold | hnew
        · exact headed item (List.mem_append_left _ hold)
        · exact ⟨inner.entries, stop, by rw [List.mem_singleton.mp hnew, Table.toItem, hform, hstop]⟩

/-- A change at the end of a path goes with editing as the change does. -/
theorem Edits.within (h : Edits swap begins change edited added brought) (made : TableForm)
    (path : List Key) :
    Edits swap begins (Table.within made change path)
      (Table.within made edited (path.map swap.editKey)) added
      (brought ∧ ∀ key ∈ path, swap.Beside key.extent) := by
  induction path with
  | nil => exact ⟨h.edit, h.form, h.extent, h.count, fun hbrought => h.opened hbrought.1⟩
  | cons key path ih =>
    constructor
    · intro table next hnext
      exact Table.within_cons_iff.mpr (ih.below made key (Table.within_cons_iff.mp hnext))
    · intro table next hnext
      cases Table.within_cons_iff.mp hnext <;> rfl
    · intro table next hnext
      cases Table.within_cons_iff.mp hnext <;> rfl
    · intro table next distinct hnext
      exact ih.count_below distinct (Table.within_cons_iff.mp hnext)
    · rintro table next ⟨hbrought, hpath⟩ hopen hnext
      obtain ⟨hkey, hpath⟩ := List.forall_mem_cons.mp hpath
      exact ih.opened_below ⟨hbrought, hpath⟩ hkey hopen (Table.within_cons_iff.mp hnext)

/-- An entry that is added under a free name. -/
theorem Edits.insert (swap : Swap) (begins : Nat → Prop) (key : Key) (item : Item) :
    Edits swap begins
      (fun table => (table.entries.insert key item).map fun entries => { table with entries })
      (fun table => (table.entries.insert (swap.editKey key) (item.edit swap)).map fun entries =>
        { table with entries })
      (item.count swap) (swap.Beside key.extent ∧ item.Placed swap begins) where
  edit {table next} hnext := by
    obtain ⟨entries, hentries, rfl⟩ := Option.map_eq_some_iff.mp hnext
    simp [Table.edit, Entries.edit_insert, hentries]
  form hnext := by
    obtain ⟨entries, -, rfl⟩ := Option.map_eq_some_iff.mp hnext
    rfl
  extent hnext := by
    obtain ⟨entries, -, rfl⟩ := Option.map_eq_some_iff.mp hnext
    rfl
  count _ hnext := by
    obtain ⟨entries, hentries, rfl⟩ := Option.map_eq_some_iff.mp hnext
    exact Entries.count_insert hentries
  opened hbrought hopen hnext := by
    obtain ⟨entries, hentries, rfl⟩ := Option.map_eq_some_iff.mp hnext
    unfold Entries.insert at hentries
    split at hentries
    · cases hentries
      exact hopen.withEntries (hopen.entries.append hbrought.1 hbrought.2)
    · cases hentries

/-- A change that is refused to tables of some forms. -/
theorem Edits.unless (h : Edits swap begins change edited added brought) (p : TableForm → Bool) :
    Edits swap begins (fun table => if p table.form then none else change table)
      (fun table => if p table.form then none else edited table) added brought where
  edit {table next} hnext := by
    have hform : (table.edit swap).form = table.form := rfl
    split at hnext
    · cases hnext
    · next hp => rw [hform, if_neg hp, h.edit hnext]
  form hnext := by
    split at hnext
    · cases hnext
    · exact h.form hnext
  extent hnext := by
    split at hnext
    · cases hnext
    · exact h.extent hnext
  count distinct hnext := by
    split at hnext
    · cases hnext
    · exact h.count distinct hnext
  opened hbrought hopen hnext := by
    split at hnext
    · cases hnext
    · exact h.opened hbrought hopen hnext

/-- Assigning an item at the end of a path goes with editing, and brings the texts of the item. -/
theorem Edits.assign (swap : Swap) (begins : Nat → Prop) (made : TableForm) (path : List Key)
    (key : Key) (item : Item) :
    Edits swap begins (Table.assign made path key item)
      (Table.assign made (path.map swap.editKey) (swap.editKey key) (item.edit swap))
      (item.count swap)
      ((swap.Beside key.extent ∧ item.Placed swap begins) ∧
        ∀ key ∈ path, swap.Beside key.extent) := by
  have h := ((Edits.insert swap begins key item).unless fun form =>
    form.isDotted == path.isEmpty).within made path
  unfold Table.assign
  rw [List.isEmpty_map]
  exact h

/-- Stretching a table over an item goes with editing. -/
theorem Table.edit_reaching (item : Item) (table : Table) :
    (table.reaching item).edit swap = (table.edit swap).reaching (item.edit swap) := by
  unfold Table.reaching Table.edit
  rw [Item.extent?_edit]
  cases table.extent with
  | none => rfl
  | some extent => cases item.extent? <;> rfl

/-- A change that lets the stretch of a table go on to the end of a placed item. -/
theorem Edits.reaching (h : Edits swap begins change edited added brought) {item : Item}
    (hitem : brought → item.Placed swap begins) :
    Edits swap begins (fun table => (change table).map fun table => table.reaching item)
      (fun table => (edited table).map fun table => table.reaching (item.edit swap)) added
      brought where
  edit hnext := by
    obtain ⟨inner, hinner, rfl⟩ := Option.map_eq_some_iff.mp hnext
    rw [h.edit hinner, Option.map_some, Table.edit_reaching]
  form hnext := by
    obtain ⟨inner, hinner, rfl⟩ := Option.map_eq_some_iff.mp hnext
    have hform := h.form hinner
    exact hform
  extent hnext := by
    obtain ⟨inner, hinner, rfl⟩ := Option.map_eq_some_iff.mp hnext
    rw [← h.extent hinner, Table.reaching, Option.isSome_map]
  count distinct hnext := by
    obtain ⟨inner, hinner, rfl⟩ := Option.map_eq_some_iff.mp hnext
    have hcount := h.count distinct hinner
    exact hcount
  opened hbrought hopen hnext := by
    obtain ⟨inner, hinner, rfl⟩ := Option.map_eq_some_iff.mp hnext
    have hkept := h.opened hbrought hopen hinner
    refine ⟨hkept.entries, fun hextent => ?_⟩
    obtain ⟨own, hown, rfl⟩ := Option.map_eq_some_iff.mp hextent
    obtain ⟨hform, clear, starts⟩ := hkept.extent hown
    cases hstop : item.extent? with
    | none => exact ⟨hform, clear, starts⟩
    | some stop => exact ⟨hform, ⟨clear.1, ((hitem hbrought).extent hstop).1.2⟩, starts⟩

/-- What a header opens is placed if its stretch is. -/
theorem Item.placed_opened {entries : Entries} (hentries : entries.Placed swap begins)
    {extent : Extent} (clear : swap.Clear extent) (starts : begins extent.start) :
    (Item.table .header entries (some extent)).Placed swap begins :=
  .header (fun entry hentry => (hentries entry hentry).1)
    (fun entry hentry => (hentries entry hentry).2) clear starts

/-- Opening a table goes with editing, and brings no texts. -/
theorem Edits.openTable (swap : Swap) (begins : Nat → Prop) (key : Key) (extent : Extent) :
    Edits swap begins (Table.openTable key extent)
      (Table.openTable (swap.editKey key) (swap.moveExtent extent)) 0
      (swap.Beside key.extent ∧ swap.Clear extent ∧ begins extent.start) where
  edit {table next} hnext := by
    have hfind := Entries.find?_edit swap table.entries key.name
    cases Table.openTable_eq_some_iff.mp hnext with
    | new free =>
      rw [free] at hfind
      simp [Table.openTable, Table.edit, hfind, Entries.edit_append]
    | implied found =>
      rw [found, Option.map_some, Item.edit_table] at hfind
      simp [Table.openTable, Table.edit, hfind, Entries.edit_append, Entries.edit_remove]
  form hnext := by cases Table.openTable_eq_some_iff.mp hnext <;> rfl
  extent hnext := by cases Table.openTable_eq_some_iff.mp hnext <;> rfl
  count {table next} distinct hnext := by
    cases Table.openTable_eq_some_iff.mp hnext with
    | new free => simp [Entries.count_append]
    | implied found =>
      have hremove := Entries.count_remove swap distinct.names found
      rw [Item.count_table] at hremove
      simp only [Entries.count_append, Item.count_table]
      omega
  opened hbrought hopen hnext := by
    obtain ⟨hkey, clear, starts⟩ := hbrought
    cases Table.openTable_eq_some_iff.mp hnext with
    | new free =>
      exact hopen.withEntries (hopen.entries.append hkey (Item.placed_opened .nil clear starts))
    | implied found =>
      have hinner := (hopen.entries.item found).entries
      exact hopen.withEntries
        ((hopen.entries.remove _).append hkey (Item.placed_opened hinner clear starts))

/-- Giving a further row to an array of tables goes with editing, and brings no texts. -/
theorem Edits.openRow (swap : Swap) (begins : Nat → Prop) (key : Key) (extent : Extent) :
    Edits swap begins (Table.openRow key extent)
      (Table.openRow (swap.editKey key) (swap.moveExtent extent)) 0
      (swap.Beside key.extent ∧ swap.Clear extent ∧ begins extent.start) where
  edit {table next} hnext := by
    have hfind := Entries.find?_edit swap table.entries key.name
    cases Table.openRow_eq_some_iff.mp hnext with
    | new free =>
      rw [free] at hfind
      simp [Table.openRow, Table.edit, hfind, Entries.edit_append]
    | further found =>
      rw [found, Option.map_some, Item.edit_tables] at hfind
      simp [Table.openRow, Table.edit, hfind, Entries.edit_replace]
      rfl
  form hnext := by cases Table.openRow_eq_some_iff.mp hnext <;> rfl
  extent hnext := by cases Table.openRow_eq_some_iff.mp hnext <;> rfl
  count {table next} distinct hnext := by
    cases Table.openRow_eq_some_iff.mp hnext with
    | new free => simp [Entries.count_append]
    | @further rows whole found =>
      have hreplace := Entries.count_replace swap distinct.names found
        (.tables (rows ++ [.table .header [] (some extent)]) (whole.upTo extent))
      simp only [Item.count_tables, List.map_append, List.map_singleton, List.sum_append,
        List.sum_singleton, Item.count_table, Entries.count_nil] at hreplace
      simp only
      omega
  opened hbrought hopen hnext := by
    obtain ⟨hkey, clear, starts⟩ := hbrought
    have hrow := Item.placed_opened Entries.Placed.nil clear starts
    cases Table.openRow_eq_some_iff.mp hnext with
    | new free =>
      refine hopen.withEntries (hopen.entries.append hkey (.tables ?_ ?_ clear starts))
      · simpa using hrow
      · simp
    | further found =>
      cases hopen.entries.item found with
      | tables each headed clear' starts' =>
        refine hopen.withEntries (hopen.entries.replace _
          (.tables ?_ ?_ ⟨clear'.1, clear.2⟩ starts'))
        · intro row hmem
          rcases List.mem_append.mp hmem with hold | hnew
          · exact each row hold
          · rw [List.mem_singleton.mp hnew]
            exact hrow
        · intro row hmem
          rcases List.mem_append.mp hmem with hold | hnew
          · exact headed row hold
          · exact ⟨[], extent, List.mem_singleton.mp hnew⟩

end Tables

/-! ## Statements -/

/-- A path of the edited document. -/
def Path.edit (swap : Swap) (path : Path) : Path :=
  ⟨path.before.map swap.editKey, swap.editKey path.last⟩

/-- The keys of a path lie beside the text. -/
def Path.Placed (swap : Swap) (path : Path) : Prop :=
  (∀ key ∈ path.before, swap.Beside key.extent) ∧ swap.Beside path.last.extent

/-- A statement of the edited document. -/
def Statement.edit (swap : Swap) : Statement → Statement
  | .assign path item => .assign (path.edit swap) (item.edit swap)
  | .header path extent => .header (path.edit swap) (swap.moveExtent extent)
  | .rowHeader path extent => .rowHeader (path.edit swap) (swap.moveExtent extent)

/-- How many texts of a statement begin where the replaced text does. -/
def Statement.count (swap : Swap) : Statement → Nat
  | .assign _ item => item.count swap
  | _ => 0

/-- No stretch of a statement begins or ends within the text, and what stretches over it has it inside.
No item that a statement gives has a header. -/
def Statement.Placed (swap : Swap) : Statement → Prop
  | .assign path item => path.Placed swap ∧ item.Placed swap fun _ => False
  | .header path extent => path.Placed swap ∧ swap.Clear extent
  | .rowHeader path extent => path.Placed swap ∧ swap.Clear extent

/-- A header begins where it may. -/
def Statement.Begins (begins : Nat → Prop) : Statement → Prop
  | .assign _ _ => True
  | .header _ extent => begins extent.start
  | .rowHeader _ extent => begins extent.start

/-- A draft of the edited document. -/
def Draft.edit (swap : Swap) (draft : Draft) : Draft :=
  ⟨draft.root.edit swap, draft.under.map swap.editKey⟩

/-- What a draft has built is open, and its last header lies beside the text. -/
structure Draft.Open (swap : Swap) (begins : Nat → Prop) (draft : Draft) : Prop where
  root : draft.root.Open swap begins
  under : ∀ key ∈ draft.under, swap.Beside key.extent

section Statements

variable {swap : Swap} {begins : Nat → Prop} {draft next : Draft} {statement : Statement}

/-- An assignment to a dotted key goes with editing, and brings the texts of the item. -/
theorem Edits.given (swap : Swap) (begins : Nat → Prop) (path : Path) (item : Item) :
    Edits swap begins
      (fun table => (Table.assign .dotted path.before path.last item table).map fun table =>
        table.reaching item)
      (fun table => (Table.assign .dotted (path.edit swap).before (path.edit swap).last
        (item.edit swap) table).map fun table => table.reaching (item.edit swap))
      (item.count swap)
      ((swap.Beside path.last.extent ∧ item.Placed swap begins) ∧
        ∀ key ∈ path.before, swap.Beside key.extent) :=
  (Edits.assign swap begins .dotted path.before path.last item).reaching fun h => h.1.2

/-- Adding a statement to a draft goes with editing. -/
theorem Draft.add_edit (h : draft.add statement = some next) :
    (draft.edit swap).add (statement.edit swap) = some (next.edit swap) := by
  cases statement with
  | assign path item =>
    obtain ⟨root, hroot, rfl⟩ := Option.map_eq_some_iff.mp h
    have hedit := ((Edits.given swap (fun _ => True) path item).within .implied _).edit hroot
    simp only [Draft.add, Statement.edit, Draft.edit, hedit, Option.map_some]
  | header path extent =>
    obtain ⟨root, hroot, rfl⟩ := Option.map_eq_some_iff.mp h
    have hedit := ((Edits.openTable swap (fun _ => True) path.last extent).within .implied _).edit hroot
    simp [Draft.add, Statement.edit, Draft.edit, Path.edit, hedit]
  | rowHeader path extent =>
    obtain ⟨root, hroot, rfl⟩ := Option.map_eq_some_iff.mp h
    have hedit := ((Edits.openRow swap (fun _ => True) path.last extent).within .implied _).edit hroot
    simp [Draft.add, Statement.edit, Draft.edit, Path.edit, hedit]

/-- A statement brings its texts to a draft. -/
theorem Draft.add_count (distinct : draft.root.entries.Distinct)
    (h : draft.add statement = some next) :
    next.root.entries.count swap = draft.root.entries.count swap + statement.count swap := by
  cases statement with
  | assign path item =>
    obtain ⟨root, hroot, rfl⟩ := Option.map_eq_some_iff.mp h
    exact ((Edits.given swap (fun _ => True) path item).within .implied _).count distinct hroot
  | header path extent =>
    obtain ⟨root, hroot, rfl⟩ := Option.map_eq_some_iff.mp h
    exact ((Edits.openTable swap (fun _ => True) path.last extent).within .implied _).count
      distinct hroot
  | rowHeader path extent =>
    obtain ⟨root, hroot, rfl⟩ := Option.map_eq_some_iff.mp h
    exact ((Edits.openRow swap (fun _ => True) path.last extent).within .implied _).count
      distinct hroot

/-- All keys of a path that is placed lie beside the text. -/
theorem Path.Placed.all {path : Path} (placed : path.Placed swap) :
    ∀ key ∈ path.before ++ [path.last], swap.Beside key.extent := by
  intro key hkey
  rcases List.mem_append.mp hkey with hbefore | hlast
  · exact placed.1 key hbefore
  · rw [List.mem_singleton.mp hlast]
    exact placed.2

/-- A draft stays open if a statement is added that is placed and begins where it may. -/
theorem Draft.Open.add (hopen : draft.Open swap begins) (placed : statement.Placed swap)
    (starts : statement.Begins begins) (h : draft.add statement = some next) :
    next.Open swap begins := by
  cases statement with
  | assign path item =>
    obtain ⟨root, hroot, rfl⟩ := Option.map_eq_some_iff.mp h
    have hitem : item.Placed swap begins := placed.2.mono fun _ h => h.elim
    exact ⟨((Edits.given swap begins path item).within .implied _).opened
      ⟨⟨⟨placed.1.2, hitem⟩, placed.1.1⟩, hopen.under⟩ hopen.root hroot, hopen.under⟩
  | header path extent =>
    obtain ⟨root, hroot, rfl⟩ := Option.map_eq_some_iff.mp h
    exact ⟨((Edits.openTable swap begins path.last extent).within .implied _).opened
      ⟨⟨placed.1.2, placed.2, starts⟩, placed.1.1⟩ hopen.root hroot, placed.1.all⟩
  | rowHeader path extent =>
    obtain ⟨root, hroot, rfl⟩ := Option.map_eq_some_iff.mp h
    exact ⟨((Edits.openRow swap begins path.last extent).within .implied _).opened
      ⟨⟨placed.1.2, placed.2, starts⟩, placed.1.1⟩ hopen.root hroot, placed.1.all⟩

end Statements

/-! ## Runs -/

/-- What goes with editing at every step goes with editing over a run. -/
theorem foldlM_edit {σ α : Type} {step : σ → α → Option σ} (editState : σ → σ) (editItem : α → α)
    (hstep : ∀ {state item next}, step state item = some next →
      step (editState state) (editItem item) = some (editState next)) :
    ∀ (items : List α) {state last : σ}, items.foldlM step state = some last →
      (items.map editItem).foldlM step (editState state) = some (editState last)
  | [], state, last, h => by
    cases h
    rfl
  | item :: items, state, last, h => by
    rw [List.foldlM_cons] at h
    obtain ⟨next, hnext, hlast⟩ := Option.bind_eq_some_iff.mp h
    rw [List.map_cons, List.foldlM_cons, hstep hnext]
    exact foldlM_edit editState editItem hstep items hlast

/-- What every step adds, the run adds. -/
theorem foldlM_sum {σ α : Type} {step : σ → α → Option σ} (Good : σ → Prop) (size : σ → Nat)
    (weight : α → Nat) (items : List α)
    (keeps : ∀ item ∈ items, ∀ state next, Good state → step state item = some next → Good next)
    (adds : ∀ item ∈ items, ∀ state next, Good state → step state item = some next →
      size next = size state + weight item) :
    ∀ state last, Good state → items.foldlM step state = some last →
      size last = size state + (items.map weight).sum := by
  induction items with
  | nil =>
    intro state last _ h
    cases h
    simp
  | cons item items ih =>
    intro state last good h
    rw [List.foldlM_cons] at h
    obtain ⟨next, hnext, hlast⟩ := Option.bind_eq_some_iff.mp h
    obtain ⟨hkeeps, hkeepsLater⟩ := List.forall_mem_cons.mp keeps
    obtain ⟨hadds, haddsLater⟩ := List.forall_mem_cons.mp adds
    have hrest := ih hkeepsLater haddsLater next last (hkeeps _ _ good hnext) hlast
    have hfirst := hadds _ _ good hnext
    rw [List.map_cons, List.sum_cons]
    omega

section Runs

variable {swap : Swap} {begins : Nat → Prop}

/-! ## Inline tables -/

/-- A pair of the edited document. -/
def Swap.editPair (swap : Swap) (pair : Path × Item) : Path × Item :=
  (pair.1.edit swap, pair.2.edit swap)

/-- Building an inline table goes with editing. -/
theorem inlineEntries?_edit {pairs : List (Path × Item)} {entries : Entries}
    (h : inlineEntries? pairs = some entries) :
    inlineEntries? (pairs.map swap.editPair) = some (entries.edit swap) := by
  obtain ⟨table, htable, rfl⟩ := Option.map_eq_some_iff.mp h
  have hrun := foldlM_edit (Table.edit swap) swap.editPair
    (fun hnext => (Edits.assign swap (fun _ => True) .inlineDotted _ _ _).edit hnext) pairs htable
  exact Option.map_eq_some_iff.mpr ⟨_, hrun, rfl⟩

/-- The texts of an inline table are those of its pairs. -/
theorem inlineEntries?_count {pairs : List (Path × Item)} {entries : Entries}
    (distinct : ∀ pair ∈ pairs, pair.2.Distinct) (h : inlineEntries? pairs = some entries) :
    entries.count swap = (pairs.map fun pair => pair.2.count swap).sum := by
  obtain ⟨table, htable, rfl⟩ := Option.map_eq_some_iff.mp h
  have hrun := foldlM_sum (fun table : Table => table.entries.Distinct)
    (fun table => table.entries.count swap) (fun pair => pair.2.count swap) pairs
    (fun pair hpair state next hdistinct hnext =>
      invariant_distinct.assign .inlineDotted _ _ (distinct pair hpair) state next hdistinct hnext)
    (fun pair _ state next hdistinct hnext =>
      (Edits.assign swap (fun _ => True) .inlineDotted _ _ _).count hdistinct hnext)
    _ table .nil htable
  simpa using hrun

/-- An inline table of pairs that are placed is placed. -/
theorem inlineEntries?_placed {pairs : List (Path × Item)} {entries : Entries}
    (placed : ∀ pair ∈ pairs, pair.1.Placed swap ∧ pair.2.Placed swap begins)
    (h : inlineEntries? pairs = some entries) : entries.Placed swap begins := by
  obtain ⟨table, htable, rfl⟩ := Option.map_eq_some_iff.mp h
  have hopen : table.Open swap begins := by
    refine foldlM_keeps pairs ?_ _ table (Table.open_empty .inline) htable
    intro pair hpair state next hopen hnext
    obtain ⟨hpath, hitem⟩ := placed pair hpair
    exact (Edits.assign swap begins .inlineDotted _ _ _).opened ⟨⟨hpath.2, hitem⟩, hpath.1⟩ hopen hnext
  exact hopen.entries

/-! ## Documents -/

/-- Building a document from statements goes with editing. -/
theorem ofStatements?_edit {statements : List Statement} {entries : Entries}
    (h : Entries.ofStatements? statements = some entries) :
    Entries.ofStatements? (statements.map (Statement.edit swap)) = some (entries.edit swap) := by
  obtain ⟨draft, hdraft, rfl⟩ := Option.map_eq_some_iff.mp h
  have hrun := foldlM_edit (Draft.edit swap) (Statement.edit swap)
    (fun hnext => Draft.add_edit hnext) statements hdraft
  exact Option.map_eq_some_iff.mpr ⟨_, hrun, rfl⟩

/-- The texts of a document are those of its statements. -/
theorem ofStatements?_count {statements : List Statement} {entries : Entries}
    (distinct : ∀ statement ∈ statements, Invariant.Gives Item.Distinct statement)
    (h : Entries.ofStatements? statements = some entries) :
    entries.count swap = (statements.map (Statement.count swap)).sum := by
  obtain ⟨draft, hdraft, rfl⟩ := Option.map_eq_some_iff.mp h
  have hrun := foldlM_sum (fun draft : Draft => draft.root.entries.Distinct)
    (fun draft => draft.root.entries.count swap) (Statement.count swap) statements
    (fun statement hstatement state next hdistinct hnext =>
      invariant_distinct.draft (distinct statement hstatement) hdistinct hnext)
    (fun statement _ state next hdistinct hnext => Draft.add_count hdistinct hnext)
    _ draft .nil hdraft
  simpa [Table.root] using hrun

/-- A document of statements that are placed is placed. -/
theorem ofStatements?_placed {statements : List Statement} {entries : Entries}
    (placed : ∀ statement ∈ statements, statement.Placed swap ∧ statement.Begins begins)
    (h : Entries.ofStatements? statements = some entries) : entries.Placed swap begins := by
  obtain ⟨draft, hdraft, rfl⟩ := Option.map_eq_some_iff.mp h
  have hopen : draft.Open swap begins := by
    refine foldlM_keeps statements ?_ _ draft ⟨Table.open_empty .header, by simp⟩ hdraft
    intro statement hstatement state next hopen hnext
    obtain ⟨hplaced, hbegins⟩ := placed statement hstatement
    exact hopen.add hplaced hbegins hnext
  exact hopen.root.entries

end Runs

end PongFixture.Toml

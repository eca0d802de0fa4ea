import PongFixture.Proofs.Toml.Distinct
import PongFixture.Proofs.Toml.Replacement

/-!
# A document edited at one text

Where one text of a document is replaced, the items of the document keep what they are, but for that
text itself: its value is another, and the stretches of what begins before it have moved
(`Item.edit`). A text is told by where it begins, and `Item.count` says how many texts of an item begin
there.

An item is placed (`Item.Placed`) if no stretch of it begins or ends within the text, and what stretches
over the text has it inside. Only tables under headers, and rows of them, may stretch over a text that is
elsewhere, and of these it is kept where their headers begin.
-/

set_option autoImplicit false

namespace PongFixture.Toml

/-! ## Items -/

/-- A key of the edited document. -/
def Swap.editKey (swap : Swap) (key : Key) : Key :=
  { key with extent := swap.moveExtent key.extent }

/-- An item in a table is smaller than the table. -/
theorem Item.sizeOf_lt_of_mem {entries : Entries} {entry : Key × Item} (h : entry ∈ entries)
    (form : TableForm) (extent : Option Extent) :
    sizeOf entry.2 < sizeOf (Item.table form entries extent) := by
  have hentry := List.sizeOf_lt_of_mem h
  obtain ⟨key, item⟩ := entry
  simp only [Prod.mk.sizeOf_spec, Item.table.sizeOf_spec] at hentry ⊢
  omega

/-- An item of the edited document. -/
def Item.edit (swap : Swap) : Item → Item
  | .text value extent =>
    .text (if extent.start = swap.here.length then String.ofList swap.newText else value)
      (swap.moveExtent extent)
  | .number value extent => .number value (swap.moveExtent extent)
  | .boolean value extent => .boolean value (swap.moveExtent extent)
  | .moment extent => .moment (swap.moveExtent extent)
  | .array items extent => .array (items.map (Item.edit swap)) (swap.moveExtent extent)
  | .table form entries extent =>
    .table form (entries.map fun entry => (swap.editKey entry.1, entry.2.edit swap))
      (extent.map swap.moveExtent)
  | .tables rows extent => .tables (rows.map (Item.edit swap)) (swap.moveExtent extent)
termination_by item => sizeOf item
decreasing_by
  · decreasing_tactic
  · exact Item.sizeOf_lt_of_mem ‹_› form extent
  · decreasing_tactic

/-- How many texts of an item begin where the replaced text does. -/
def Item.count (swap : Swap) : Item → Nat
  | .text _ extent => if extent.start = swap.here.length then 1 else 0
  | .number _ _ => 0
  | .boolean _ _ => 0
  | .moment _ => 0
  | .array items _ => (items.map (Item.count swap)).sum
  | .table _ entries _ => (entries.map fun entry => entry.2.count swap).sum
  | .tables rows _ => (rows.map (Item.count swap)).sum
termination_by item => sizeOf item
decreasing_by
  · decreasing_tactic
  · exact Item.sizeOf_lt_of_mem ‹_› ‹_› ‹_›
  · decreasing_tactic

/-- The contents of a table of the edited document. -/
def Entries.edit (swap : Swap) (entries : Entries) : Entries :=
  entries.map fun entry => (swap.editKey entry.1, entry.2.edit swap)

/-- How many texts in a table begin where the replaced text does. -/
def Entries.count (swap : Swap) (entries : Entries) : Nat :=
  (entries.map fun entry => entry.2.count swap).sum

section Items

variable {swap : Swap}

/-- Editing keeps the name of a key. -/
@[simp] theorem Swap.editKey_name (key : Key) : (swap.editKey key).name = key.name := rfl

/-- An item is edited with all that is in it. -/
theorem Item.edit_eq (swap : Swap) (item : Item) :
    item.edit swap = match item with
      | .text value extent =>
        .text (if extent.start = swap.here.length then String.ofList swap.newText else value)
          (swap.moveExtent extent)
      | .number value extent => .number value (swap.moveExtent extent)
      | .boolean value extent => .boolean value (swap.moveExtent extent)
      | .moment extent => .moment (swap.moveExtent extent)
      | .array items extent => .array (items.map (Item.edit swap)) (swap.moveExtent extent)
      | .table form entries extent =>
        .table form (Entries.edit swap entries) (extent.map swap.moveExtent)
      | .tables rows extent => .tables (rows.map (Item.edit swap)) (swap.moveExtent extent) := by
  cases item <;> rw [Item.edit]
  rfl

/-- The texts of an item are those of what is in it. -/
theorem Item.count_eq (swap : Swap) (item : Item) :
    item.count swap = match item with
      | .text _ extent => if extent.start = swap.here.length then 1 else 0
      | .array items _ | .tables items _ => (items.map (Item.count swap)).sum
      | .table _ entries _ => Entries.count swap entries
      | .number _ _ | .boolean _ _ | .moment _ => 0 := by
  cases item <;> rw [Item.count]
  rfl

/-- A text is another one if it begins where the replaced text does. -/
@[simp] theorem Item.edit_text (value : String) (extent : Extent) :
    (Item.text value extent).edit swap =
      .text (if extent.start = swap.here.length then String.ofList swap.newText else value)
        (swap.moveExtent extent) := Item.edit_eq swap _

/-- A number stays as it is, but for its stretch. -/
@[simp] theorem Item.edit_number (value : Number) (extent : Extent) :
    (Item.number value extent).edit swap = .number value (swap.moveExtent extent) :=
  Item.edit_eq swap _

/-- A truth value stays as it is, but for its stretch. -/
@[simp] theorem Item.edit_boolean (value : Bool) (extent : Extent) :
    (Item.boolean value extent).edit swap = .boolean value (swap.moveExtent extent) :=
  Item.edit_eq swap _

/-- A moment stays as it is, but for its stretch. -/
@[simp] theorem Item.edit_moment (extent : Extent) :
    (Item.moment extent).edit swap = .moment (swap.moveExtent extent) := Item.edit_eq swap _

/-- An array is edited item by item. -/
@[simp] theorem Item.edit_array (items : List Item) (extent : Extent) :
    (Item.array items extent).edit swap =
      .array (items.map (Item.edit swap)) (swap.moveExtent extent) := Item.edit_eq swap _

/-- A table is edited entry by entry. -/
@[simp] theorem Item.edit_table (form : TableForm) (entries : Entries) (extent : Option Extent) :
    (Item.table form entries extent).edit swap =
      .table form (entries.edit swap) (extent.map swap.moveExtent) := Item.edit_eq swap _

/-- An array of tables is edited row by row. -/
@[simp] theorem Item.edit_tables (rows : List Item) (extent : Extent) :
    (Item.tables rows extent).edit swap =
      .tables (rows.map (Item.edit swap)) (swap.moveExtent extent) := Item.edit_eq swap _

/-- A text counts if it begins where the replaced text does. -/
@[simp] theorem Item.count_text (value : String) (extent : Extent) :
    (Item.text value extent).count swap = if extent.start = swap.here.length then 1 else 0 :=
  Item.count_eq swap _

/-- A number has no texts. -/
@[simp] theorem Item.count_number (value : Number) (extent : Extent) :
    (Item.number value extent).count swap = 0 := Item.count_eq swap _

/-- A truth value has no texts. -/
@[simp] theorem Item.count_boolean (value : Bool) (extent : Extent) :
    (Item.boolean value extent).count swap = 0 := Item.count_eq swap _

/-- A moment has no texts. -/
@[simp] theorem Item.count_moment (extent : Extent) : (Item.moment extent).count swap = 0 :=
  Item.count_eq swap _

/-- The texts of an array are those of its items. -/
@[simp] theorem Item.count_array (items : List Item) (extent : Extent) :
    (Item.array items extent).count swap = (items.map (Item.count swap)).sum :=
  Item.count_eq swap _

/-- The texts of a table are those of its entries. -/
@[simp] theorem Item.count_table (form : TableForm) (entries : Entries) (extent : Option Extent) :
    (Item.table form entries extent).count swap = entries.count swap := Item.count_eq swap _

/-- The texts of an array of tables are those of its rows. -/
@[simp] theorem Item.count_tables (rows : List Item) (extent : Extent) :
    (Item.tables rows extent).count swap = (rows.map (Item.count swap)).sum :=
  Item.count_eq swap _

/-- The stretch of an item moves as it is edited. -/
theorem Item.extent?_edit (item : Item) :
    (item.edit swap).extent? = item.extent?.map swap.moveExtent := by
  cases item <;> simp [Item.extent?]

end Items

/-! ## Entries -/

namespace Entries

variable {swap : Swap} {entries : Entries}

/-- There is nothing to edit in the empty table. -/
@[simp] theorem edit_nil : Entries.edit swap [] = [] := rfl

/-- The empty table has no texts. -/
@[simp] theorem count_nil : Entries.count swap [] = 0 := rfl

/-- The texts of a table are those of its first entry and of the others. -/
theorem count_cons (entry : Key × Item) (entries : Entries) :
    Entries.count swap (entry :: entries) = entry.2.count swap + entries.count swap := by
  simp [Entries.count]

/-- What is found in an edited table is the edited item. -/
theorem find?_edit (swap : Swap) (entries : Entries) (name : String) :
    (entries.edit swap).find? name = (entries.find? name).map (Item.edit swap) := by
  unfold Entries.find? Entries.edit
  rw [List.find?_map, Option.map_map, Option.map_map]
  rfl

/-- Adding an entry goes with editing. -/
theorem edit_append (key : Key) (item : Item) :
    (entries.append key item).edit swap =
      (entries.edit swap).append (swap.editKey key) (item.edit swap) := by
  simp [Entries.append, Entries.edit]

/-- Putting an item in the place of another goes with editing. -/
theorem edit_replace (name : String) (item : Item) :
    (entries.replace name item).edit swap = (entries.edit swap).replace name (item.edit swap) := by
  simp only [Entries.replace, Entries.edit, List.map_map]
  apply List.map_congr_left
  intro entry _
  by_cases h : entry.1.name = name <;> simp [h]

/-- Taking out an entry goes with editing. -/
theorem edit_remove (name : String) :
    (entries.remove name).edit swap = (entries.edit swap).remove name := by
  simp only [Entries.remove, Entries.edit, List.filter_map]
  rfl

/-- Inserting an entry goes with editing, also where it is refused. -/
theorem edit_insert (key : Key) (item : Item) :
    (entries.edit swap).insert (swap.editKey key) (item.edit swap) =
      (entries.insert key item).map (Entries.edit swap) := by
  unfold Entries.insert
  rw [find?_edit, swap.editKey_name]
  cases entries.find? key.name with
  | none => simp [edit_append]
  | some found => rfl

/-- An entry that is added brings its texts. -/
theorem count_append (key : Key) (item : Item) :
    (entries.append key item).count swap = entries.count swap + item.count swap := by
  simp [Entries.append, Entries.count]

/-- An entry that is inserted brings its texts. -/
theorem count_insert {key : Key} {item : Item} {next : Entries}
    (h : entries.insert key item = some next) :
    next.count swap = entries.count swap + item.count swap := by
  unfold Entries.insert at h
  split at h
  · cases h
    exact count_append key item
  · cases h

/-- Where names are distinct, the later entries have other names than the first. -/
theorem ne_of_nodup {entry other : Key × Item}
    (names : ((entry :: entries).map fun entry => entry.1.name).Nodup) (h : other ∈ entries) :
    other.1.name ≠ entry.1.name := by
  intro same
  rw [List.map_cons, List.nodup_cons] at names
  exact names.1 (List.mem_map.mpr ⟨other, h, same⟩)

/-- The first entry is found under its name, and the others are looked through for any other name.
-/
theorem find?_cons (entry : Key × Item) (name : String) :
    Entries.find? name (entry :: entries) =
      if entry.1.name = name then some entry.2 else entries.find? name := by
  by_cases h : entry.1.name = name <;> simp [Entries.find?, h]

/-- What is put in place of an entry is counted instead of it. -/
theorem count_replace (swap : Swap) (names : (entries.map fun entry => entry.1.name).Nodup) {name : String}
    {old : Item} (found : entries.find? name = some old) (item : Item) :
    (entries.replace name item).count swap + old.count swap =
      entries.count swap + item.count swap := by
  induction entries with
  | nil => cases found
  | cons entry entries ih =>
    have hcons : Entries.replace name item (entry :: entries) =
        (if entry.1.name == name then (entry.1, item) else entry) ::
          Entries.replace name item entries := rfl
    rw [find?_cons] at found
    rw [hcons, count_cons, count_cons]
    split at found
    · next hname =>
      cases found
      have hself : Entries.replace name item entries = entries := by
        refine (List.map_congr_left fun other hother => ?_).trans (List.map_id entries)
        have hother := ne_of_nodup names hother
        simp [← hname, hother]
      rw [hself]
      simp only [hname, beq_self_eq_true, if_true]
      omega
    · next hname =>
      have hrest := ih (List.nodup_cons.mp names).2 found
      simp only [beq_eq_false_iff_ne.mpr hname, Bool.false_eq_true, if_false]
      omega

/-- What is taken out is counted no longer. -/
theorem count_remove (swap : Swap) (names : (entries.map fun entry => entry.1.name).Nodup) {name : String}
    {old : Item} (found : entries.find? name = some old) :
    (entries.remove name).count swap + old.count swap = entries.count swap := by
  induction entries with
  | nil => cases found
  | cons entry entries ih =>
    rw [find?_cons] at found
    rw [count_cons]
    split at found
    · next hname =>
      cases found
      have hself : Entries.remove name (entry :: entries) = entries := by
        unfold Entries.remove
        rw [List.filter_cons_of_neg (by simp [hname]), List.filter_eq_self]
        intro other hother
        have hother := ne_of_nodup names hother
        simp [← hname, hother]
      rw [hself]
      omega
    · next hname =>
      have hcons : Entries.remove name (entry :: entries) =
          entry :: Entries.remove name entries := by
        unfold Entries.remove
        rw [List.filter_cons_of_pos (by simp [hname])]
      have hrest := ih (List.nodup_cons.mp names).2 found
      rw [hcons, count_cons]
      omega

end Entries

/-! ## Placement -/

/-- A stretch that neither begins nor ends within the text nor has it inside. -/
def Swap.Beside (swap : Swap) (extent : Extent) : Prop := swap.Clear extent ∧ ¬ swap.Spans extent

/-- No stretch of an item begins or ends within the replaced text, and what stretches over it has it
inside, apart from what has a header, and there headers begin where they may. -/
inductive Item.Placed (swap : Swap) (begins : Nat → Prop) : Item → Prop
  | text {value : String} {extent : Extent} (clear : swap.Clear extent)
      (own : swap.Spans extent → extent.start = swap.here.length) :
      Placed swap begins (.text value extent)
  | number {value : Number} {extent : Extent} (beside : swap.Beside extent) :
      Placed swap begins (.number value extent)
  | boolean {value : Bool} {extent : Extent} (beside : swap.Beside extent) :
      Placed swap begins (.boolean value extent)
  | moment {extent : Extent} (beside : swap.Beside extent) : Placed swap begins (.moment extent)
  | array {items : List Item} {extent : Extent} (each : ∀ item ∈ items, Placed swap begins item)
      (clear : swap.Clear extent)
      (holds : swap.Spans extent → 0 < (items.map (Item.count swap)).sum) :
      Placed swap begins (.array items extent)
  | inline {entries : Entries} {extent : Extent}
      (keys : ∀ entry ∈ entries, swap.Beside entry.1.extent)
      (each : ∀ entry ∈ entries, Placed swap begins entry.2) (clear : swap.Clear extent)
      (holds : swap.Spans extent → 0 < Entries.count swap entries) :
      Placed swap begins (.table .inline entries (some extent))
  | header {entries : Entries} {extent : Extent}
      (keys : ∀ entry ∈ entries, swap.Beside entry.1.extent)
      (each : ∀ entry ∈ entries, Placed swap begins entry.2) (clear : swap.Clear extent)
      (starts : begins extent.start) : Placed swap begins (.table .header entries (some extent))
  | bare {form : TableForm} {entries : Entries}
      (keys : ∀ entry ∈ entries, swap.Beside entry.1.extent)
      (each : ∀ entry ∈ entries, Placed swap begins entry.2) :
      Placed swap begins (.table form entries none)
  | tables {rows : List Item} {extent : Extent} (each : ∀ row ∈ rows, Placed swap begins row)
      (headed : ∀ row ∈ rows, ∃ entries own, row = .table .header entries (some own))
      (clear : swap.Clear extent) (starts : begins extent.start) :
      Placed swap begins (.tables rows extent)

/-- The entries of a table are placed. -/
def Entries.Placed (swap : Swap) (begins : Nat → Prop) (entries : Entries) : Prop :=
  ∀ entry ∈ entries, swap.Beside entry.1.extent ∧ entry.2.Placed swap begins

section Placement

variable {swap : Swap} {begins : Nat → Prop}

/-- What is read as a value that holds nothing is read beside the text. -/
theorem Swap.Beside.of_plain {α : Type} {x : α × Extent}
    (h : ((Marking.plain α).spanned swap).placed x) : swap.Beside x.2 :=
  ⟨h.2.1, fun hspans => Nat.not_lt_zero 0 (h.2.2 hspans)⟩

/-- What is placed where headers begin somewhere is placed where they may begin in more places. -/
theorem Item.Placed.mono {more : Nat → Prop} (h : ∀ place, begins place → more place) {item : Item}
    (placed : item.Placed swap begins) : item.Placed swap more := by
  induction placed with
  | text clear own => exact .text clear own
  | number beside => exact .number beside
  | boolean beside => exact .boolean beside
  | moment beside => exact .moment beside
  | array _ clear holds ih => exact .array ih clear holds
  | inline keys _ clear holds ih => exact .inline keys ih clear holds
  | header keys _ clear starts ih => exact .header keys ih clear (h _ starts)
  | bare keys _ ih => exact .bare keys ih
  | tables _ headed clear starts ih => exact .tables ih headed clear (h _ starts)

/-- Where an item without the text stretches over it, it begins with a header. -/
theorem Item.Placed.extent {item : Item} (placed : item.Placed swap begins) {extent : Extent}
    (h : item.extent? = some extent) :
    swap.Clear extent ∧ (item.count swap = 0 → swap.Spans extent → begins extent.start) := by
  cases placed with
  | text clear own =>
    cases h
    refine ⟨clear, fun hcount hspans => ?_⟩
    rw [Item.count_text, if_pos (own hspans)] at hcount
    cases hcount
  | number beside | boolean beside | moment beside =>
    cases h
    exact ⟨beside.1, fun _ hspans => absurd hspans beside.2⟩
  | array _ clear holds =>
    cases h
    refine ⟨clear, fun hcount hspans => ?_⟩
    have hpos := holds hspans
    rw [Item.count_array] at hcount
    omega
  | inline _ _ clear holds =>
    cases h
    refine ⟨clear, fun hcount hspans => ?_⟩
    have hpos := holds hspans
    rw [Item.count_table] at hcount
    omega
  | header _ _ clear starts =>
    cases h
    exact ⟨clear, fun _ _ => starts⟩
  | bare => cases h
  | tables _ _ clear starts =>
    cases h
    exact ⟨clear, fun _ _ => starts⟩

/-- The entries of a table that is placed are placed. -/
theorem Item.Placed.entries {form : TableForm} {entries : Entries} {extent : Option Extent}
    (placed : (Item.table form entries extent).Placed swap begins) :
    entries.Placed swap begins := by
  cases placed with
  | inline keys each | header keys each | bare keys each =>
    exact fun entry hentry => ⟨keys entry hentry, each entry hentry⟩

namespace Entries

variable {entries : Entries}

/-- The empty table is placed. -/
theorem Placed.nil : Entries.Placed swap begins [] := by
  intro entry hentry
  cases hentry

/-- What is found in a table that is placed is placed. -/
theorem Placed.item (placed : entries.Placed swap begins) {name : String} {item : Item}
    (h : entries.find? name = some item) : item.Placed swap begins := by
  obtain ⟨key, -, member⟩ := mem_of_find? h
  exact (placed _ member).2

/-- A table stays placed if an entry is added that is. -/
theorem Placed.append (placed : entries.Placed swap begins) {key : Key} {item : Item}
    (hkey : swap.Beside key.extent) (hitem : item.Placed swap begins) :
    (entries.append key item).Placed swap begins := by
  intro entry hentry
  rcases List.mem_append.mp hentry with hold | hnew
  · exact placed entry hold
  · rw [List.mem_singleton.mp hnew]
    exact ⟨hkey, hitem⟩

/-- A table stays placed if an item is replaced by one that is. -/
theorem Placed.replace (placed : entries.Placed swap begins) (name : String) {item : Item}
    (hitem : item.Placed swap begins) : (entries.replace name item).Placed swap begins := by
  intro entry hentry
  obtain ⟨old, hold, rfl⟩ := List.mem_map.mp hentry
  split
  · exact ⟨(placed old hold).1, hitem⟩
  · exact placed old hold

/-- A table stays placed if an entry is taken out. -/
theorem Placed.remove (placed : entries.Placed swap begins) (name : String) :
    (entries.remove name).Placed swap begins :=
  fun entry hentry => placed entry (List.mem_of_mem_filter hentry)

end Entries

end Placement

end PongFixture.Toml

import Mathlib.Data.List.Nodup
import PongFixture.Proofs.Toml.Invariant

/-!
# No document defines a key twice

A key that is given twice would have two items. The readers of a document refuse it: whatever adds
an item to a table first looks whether the name is free, and a table that is entered again is put
back in its own place. So every table of a document that is read, at any depth, has at most one
entry of a name, and what stands under a name is well defined.
-/

set_option autoImplicit false

namespace PongFixture.Toml

/-- No table in an item has two entries of one name. -/
inductive Item.Distinct : Item → Prop
  | text (value : String) (extent : Extent) : Distinct (.text value extent)
  | number (value : Number) (extent : Extent) : Distinct (.number value extent)
  | boolean (value : Bool) (extent : Extent) : Distinct (.boolean value extent)
  | moment (extent : Extent) : Distinct (.moment extent)
  | array {items : List Item} (extent : Extent) (each : ∀ item ∈ items, Distinct item) :
      Distinct (.array items extent)
  | table {entries : Entries} (form : TableForm) (extent : Option Extent)
      (names : (entries.map fun entry => entry.1.name).Nodup)
      (each : ∀ entry ∈ entries, Distinct entry.2) : Distinct (.table form entries extent)
  | tables {rows : List Item} (extent : Extent) (each : ∀ row ∈ rows, Distinct row) :
      Distinct (.tables rows extent)

namespace Entries

/-- At most one entry has a name, here and in the tables below. -/
structure Distinct (entries : Entries) : Prop where
  names : (entries.map fun entry => entry.1.name).Nodup
  each : ∀ entry ∈ entries, entry.2.Distinct

/-- The empty table has no key twice. -/
theorem Distinct.nil : Distinct [] := ⟨List.nodup_nil, by simp⟩

/-- What is found under a name is an entry with a key of that name. -/
theorem mem_of_find? {entries : Entries} {name : String} {item : Item}
    (h : entries.find? name = some item) :
    ∃ key : Key, key.name = name ∧ (key, item) ∈ entries := by
  obtain ⟨⟨key, found⟩, hfind, rfl⟩ := Option.map_eq_some_iff.mp h
  exact ⟨key, by simpa using List.find?_some hfind, List.mem_of_find?_eq_some hfind⟩

/-- Where names are distinct, an entry is the one that its name finds. -/
theorem Distinct.find?_of_mem {entries : Entries} (distinct : entries.Distinct) {key : Key}
    {item : Item} (member : (key, item) ∈ entries) : entries.find? key.name = some item := by
  cases hfind : entries.find? key.name with
  | none => exact absurd rfl (find?_eq_none_iff.mp hfind _ member)
  | some found =>
    obtain ⟨other, hname, hmem⟩ := mem_of_find? hfind
    have same : (other, found) = (key, item) :=
      List.inj_on_of_nodup_map distinct.names hmem member hname
    cases same
    rfl

/-- What is found in a table without double keys has no double keys. -/
theorem Distinct.item {entries : Entries} (distinct : entries.Distinct) {name : String}
    {item : Item} (h : entries.find? name = some item) : item.Distinct := by
  obtain ⟨key, -, member⟩ := mem_of_find? h
  exact distinct.each _ member

/-- An entry may be added under a name that is free. -/
theorem Distinct.append {entries : Entries} (distinct : entries.Distinct) {key : Key}
    {item : Item} (free : entries.find? key.name = none) (hitem : item.Distinct) :
    (entries.append key item).Distinct := by
  constructor
  · show ((entries ++ [(key, item)]).map fun entry => entry.1.name).Nodup
    rw [List.map_append, List.map_singleton, List.nodup_append]
    refine ⟨distinct.names, List.nodup_singleton _, ?_⟩
    intro name hname other hother
    obtain ⟨entry, hentry, rfl⟩ := List.mem_map.mp hname
    rw [List.mem_singleton.mp hother]
    exact find?_eq_none_iff.mp free entry hentry
  · intro entry hentry
    rcases List.mem_append.mp hentry with hold | hnew
    · exact distinct.each entry hold
    · rw [List.mem_singleton.mp hnew]
      exact hitem

/-- An entry may be put in the place of the one of its name. -/
theorem Distinct.replace {entries : Entries} (distinct : entries.Distinct) (name : String)
    {item : Item} (hitem : item.Distinct) : (entries.replace name item).Distinct := by
  constructor
  · have same : (entries.replace name item).map (fun entry => entry.1.name) =
        entries.map fun entry => entry.1.name := by
      unfold Entries.replace
      rw [List.map_map]
      apply List.map_congr_left
      intro entry _
      show (if entry.1.name == name then (entry.1, item) else entry).1.name = entry.1.name
      split <;> rfl
    rw [same]
    exact distinct.names
  · intro entry hentry
    obtain ⟨old, hold, rfl⟩ := List.mem_map.mp hentry
    split
    · exact hitem
    · exact distinct.each old hold

/-- An entry may be taken out. -/
theorem Distinct.remove {entries : Entries} (distinct : entries.Distinct) (name : String) :
    (entries.remove name).Distinct :=
  ⟨distinct.names.sublist (List.filter_sublist.map _),
    fun entry hentry => distinct.each entry (List.mem_of_mem_filter hentry)⟩

end Entries

/-- A table as an item has no key twice exactly if its entries have none twice. -/
theorem Item.distinct_table {form : TableForm} {entries : Entries} {extent : Option Extent} :
    (Item.table form entries extent).Distinct ↔ entries.Distinct := by
  constructor
  · rintro (_ | _ | _ | _ | _ | ⟨_, _, names, each⟩ | _)
    exact ⟨names, each⟩
  · rintro ⟨names, each⟩
    exact .table form extent names each

/-- An array of tables has no key twice exactly if none of its rows has. -/
theorem Item.distinct_tables {rows : List Item} {extent : Extent} :
    (Item.tables rows extent).Distinct ↔ ∀ row ∈ rows, row.Distinct := by
  constructor
  · rintro (_ | _ | _ | _ | _ | _ | ⟨_, each⟩)
    exact each
  · exact .tables extent

/-- A scalar has no keys. -/
theorem readScalar_distinct {cs rest : List Char} {item : Item}
    (h : readScalar cs = some (item, rest)) : item.Distinct := by
  rcases readScalar_cases h with ⟨_, _, rfl⟩ | ⟨_, _, rfl⟩ | ⟨_, rfl⟩ | ⟨_, _, rfl, -⟩
  · exact .text _ _
  · exact .boolean _ _
  · exact .moment _
  · exact .number _ _

/-- All reading and building keeps keys apart. -/
theorem invariant_distinct : Invariant Item.Distinct Entries.Distinct where
  scalar _ _ _ := readScalar_distinct
  array _ extent := .array extent
  table _ _ _ := Item.distinct_table
  tables _ _ := Item.distinct_tables
  nil := .nil
  find _ _ _ distinct := distinct.item
  append _ _ _ distinct := distinct.append
  replace _ name _ distinct := distinct.replace name
  remove _ name distinct := distinct.remove name

/-- Every table of a document that is read has at most one entry of a name. -/
theorem Document.entries_distinct {text : List Char} {document : Document}
    (h : Document.parse? text = some document) : document.entries.Distinct :=
  invariant_distinct.document h

end PongFixture.Toml

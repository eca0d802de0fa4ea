import PongFixture.Proofs.Toml.Invariant

/-!
# Whole numbers of a document are in range

A whole number is kept only if it fits: from -2^63 to 2^63 - 1. The readers check it where the
number is read, in every base, and nothing else makes one.
-/

set_option autoImplicit false

namespace PongFixture.Toml

open Numeral

/-- A number is a real one, or a whole one of sixty-four bits with a sign. -/
def Number.InRange : Number → Prop
  | .integer value => -(integerBound : Int) ≤ value ∧ value < integerBound
  | .real _ => True

/-- All numbers in an item are in range. -/
inductive Item.InRange : Item → Prop
  | text (value : String) (extent : Extent) : InRange (.text value extent)
  | number {value : Number} (extent : Extent) (inRange : value.InRange) :
      InRange (.number value extent)
  | boolean (value : Bool) (extent : Extent) : InRange (.boolean value extent)
  | moment (extent : Extent) : InRange (.moment extent)
  | array {items : List Item} (extent : Extent) (each : ∀ item ∈ items, InRange item) :
      InRange (.array items extent)
  | table {entries : Entries} (form : TableForm) (extent : Option Extent)
      (each : ∀ entry ∈ entries, InRange entry.2) : InRange (.table form entries extent)
  | tables {rows : List Item} (extent : Extent) (each : ∀ row ∈ rows, InRange row) :
      InRange (.tables rows extent)

/-- All numbers in a table are in range. -/
def Entries.InRange (entries : Entries) : Prop := ∀ entry ∈ entries, entry.2.InRange

/-- A whole number of a sign and a magnitude is in range, if there is one. -/
theorem integerOf?_inRange {negative : Bool} {magnitude : Nat} {number : Number}
    (h : integerOf? negative magnitude = some number) : number.InRange := by
  unfold integerOf? at h
  split at h
  · split at h
    · next bounded =>
      cases h
      unfold integerBound at bounded
      unfold Number.InRange integerBound
      omega
    · cases h
  · split at h
    · next bounded =>
      cases h
      unfold integerBound at bounded
      unfold Number.InRange integerBound
      omega
    · cases h

/-- A number that is read in a base with a prefix is in range. -/
theorem readBased_inRange {base : Nat} {cs rest : List Char} {number : Number}
    (h : readBased base cs = some (number, rest)) : number.InRange := by
  simp only [readBased, Option.bind_eq_bind, Option.bind_eq_some_iff] at h
  obtain ⟨⟨ds, _⟩, -, value, hvalue, same⟩ := h
  cases same
  exact integerOf?_inRange hvalue

/-- A number that is read after its sign is in range. -/
theorem readMagnitude_inRange {sign : Option Bool} {cs rest : List Char} {number : Number}
    (h : readMagnitude sign cs = some (number, rest)) : number.InRange := by
  simp only [readMagnitude, Option.bind_eq_bind, Option.bind_eq_some_iff] at h
  obtain ⟨⟨whole, _⟩, -, ⟨fraction, _⟩, -, ⟨exponent, _⟩, -, h⟩ := h
  split at h
  · obtain ⟨value, hvalue, same⟩ := Option.bind_eq_some_iff.mp h
    cases same
    exact integerOf?_inRange hvalue
  · obtain ⟨value, hvalue, same⟩ := Option.bind_eq_some_iff.mp h
    cases same
    unfold realOf? at hvalue
    split at hvalue
    · cases hvalue
    · cases hvalue
      trivial

/-- A number that is read is in range. -/
theorem readNumber_inRange {cs rest : List Char} {number : Number}
    (h : readNumber cs = some (number, rest)) : number.InRange := by
  unfold readNumber at h
  split at h
  · exact readBased_inRange h
  · exact readBased_inRange h
  · exact readBased_inRange h
  · simp only at h
    split at h
    · obtain ⟨_, -, same⟩ := Option.map_eq_some_iff.mp h
      cases same
      trivial
    · obtain ⟨_, -, same⟩ := Option.map_eq_some_iff.mp h
      cases same
      trivial
    · exact readMagnitude_inRange h

/-- A scalar that is read is in range. -/
theorem readScalar_inRange {cs rest : List Char} {item : Item}
    (h : readScalar cs = some (item, rest)) : item.InRange := by
  rcases readScalar_cases h with ⟨_, _, rfl⟩ | ⟨_, _, rfl⟩ | ⟨_, rfl⟩ | ⟨_, _, rfl, hnumber⟩
  · exact .text _ _
  · exact .boolean _ _
  · exact .moment _
  · exact .number _ (readNumber_inRange hnumber)

/-- A table as an item is in range exactly if its entries are. -/
theorem Item.inRange_table {form : TableForm} {entries : Entries} {extent : Option Extent} :
    (Item.table form entries extent).InRange ↔ entries.InRange := by
  constructor
  · rintro (_ | _ | _ | _ | _ | ⟨_, _, each⟩ | _)
    exact each
  · exact .table form extent

/-- An array of tables is in range exactly if all its rows are. -/
theorem Item.inRange_tables {rows : List Item} {extent : Extent} :
    (Item.tables rows extent).InRange ↔ ∀ row ∈ rows, row.InRange := by
  constructor
  · rintro (_ | _ | _ | _ | _ | _ | ⟨_, each⟩)
    exact each
  · exact .tables extent

/-- All reading and building keeps numbers in range. -/
theorem invariant_inRange : Invariant Item.InRange Entries.InRange where
  scalar _ _ _ := readScalar_inRange
  array _ extent := .array extent
  table _ _ _ := Item.inRange_table
  tables _ _ := Item.inRange_tables
  nil := by simp [Entries.InRange]
  find := by
    intro entries name item inRange h
    obtain ⟨entry, hentry, rfl⟩ := Option.map_eq_some_iff.mp h
    exact inRange entry (List.mem_of_find?_eq_some hentry)
  append := by
    intro entries key item inRange _ hitem entry hentry
    rcases List.mem_append.mp hentry with hold | hnew
    · exact inRange entry hold
    · rw [List.mem_singleton.mp hnew]
      exact hitem
  replace := by
    intro entries name item inRange hitem entry hentry
    obtain ⟨old, hold, rfl⟩ := List.mem_map.mp hentry
    split
    · exact hitem
    · exact inRange old hold
  remove := by
    intro entries name inRange entry hentry
    exact inRange entry (List.mem_filter.mp hentry).1

/-- Every number of a document that is read is in range. -/
theorem Document.entries_inRange {text : List Char} {document : Document}
    (h : Document.parse? text = some document) : document.entries.InRange :=
  invariant_inRange.document h

end PongFixture.Toml

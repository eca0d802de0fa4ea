import Mathlib.Algebra.Order.BigOperators.Group.List
import Mathlib.Algebra.Order.Group.Nat
import PongFixture.Proofs.Settings.Reading
import PongFixture.Proofs.Toml.Excerpts

/-!
# Decoding a document with another password

Where a text of a document is replaced, decoding goes the same way in both documents (`Paired`), as long
as the text is used for nothing but the password: it comes to values that agree but for the password, or
to complaints about the same thing, each where it stands in its document. Every step is decoded for
itself, and the steps are put together in the order of the file, so that the first complaint in one
document is the first in the other.

An item without the text is `Spared`. Its stretch is one that a complaint may be about, and it is found
to be the same in both documents.
-/

set_option autoImplicit false

namespace PongFixture.Settings

open Toml Options

/-- A complaint about the same thing in the edited document. -/
def Mismatch.edit (swap : Swap) (mismatch : Mismatch) : Mismatch :=
  { mismatch with extent := swap.moveExtent mismatch.extent }

/-- What decoding comes to in a document and in the edited one: values that are alike, or complaints
about the same stretch. -/
inductive Paired (swap : Swap) {α : Type} (alike : α → α → Prop) :
    Except Mismatch α → Except Mismatch α → Prop
  | ok {one other : α} (same : alike one other) : Paired swap alike (.ok one) (.ok other)
  | error {mismatch : Mismatch} (regular : swap.Regular mismatch.extent) :
      Paired swap alike (.error mismatch) (.error (mismatch.edit swap))

/-- An item that does not hold the text. -/
structure Spared (swap : Swap) (item : Item) : Prop where
  placed : item.Placed swap (BlankBefore (swap.before ++ swap.here))
  without : item.count swap = 0

variable {swap : Swap}

/-! ## Steps -/

section Steps

variable {α β : Type} {alike : α → α → Prop} {related : β → β → Prop}

/-- Paired results stay paired through steps that pair whatever is alike. -/
theorem Paired.bind {first other : Except Mismatch α} (h : Paired swap alike first other)
    {next later : α → Except Mismatch β}
    (each : ∀ x y, alike x y → Paired swap related (next x) (later y)) :
    Paired swap related (first >>= next) (other >>= later) := by
  cases h with
  | ok same => exact each _ _ same
  | error regular => exact .error regular

/-- A run over the entries of a table, if its steps are paired. -/
theorem Paired.run {step : α → Key × Item → Except Mismatch α} {entries : Entries}
    (each : ∀ entry ∈ entries, ∀ x y, alike x y →
      Paired swap alike (step x entry) (step y (swap.editKey entry.1, entry.2.edit swap))) :
    ∀ one other, alike one other →
      Paired swap alike (entries.foldlM step one) ((entries.edit swap).foldlM step other) := by
  induction entries with
  | nil =>
    intro _ _ same
    exact .ok same
  | cons entry entries ih =>
    intro _ _ same
    have hrest := ih fun later hlater => each later (List.mem_cons_of_mem _ hlater)
    exact (each entry List.mem_cons_self _ _ same).bind hrest

/-- A step that takes an entry for a field if it has the name, and goes on otherwise. -/
theorem Paired.field {key : Key} {name : String} {first other : Except Mismatch β}
    {set setMoved : β → α} {others othersMoved : Except Mismatch α}
    (own : key.name = name → Paired swap related first other)
    (same : ∀ x y, related x y → alike (set x) (setMoved y))
    (apart : key.name ≠ name → Paired swap alike others othersMoved) :
    Paired swap alike
      (if key.name = name then do
        let x ← first
        return set x
      else others)
      (if (swap.editKey key).name = name then do
        let y ← other
        return setMoved y
      else othersMoved) := by
  rw [swap.editKey_name]
  by_cases named : key.name = name
  · rw [if_pos named, if_pos named]
    refine (own named).bind ?_
    intro x y hsame
    exact .ok (same x y hsame)
  · rw [if_neg named, if_neg named]
    exact apart named

end Steps

/-! ## Values -/

/-- A complaint names an item without the text alike in both documents. -/
theorem Spared.found {item : Item} (spared : Spared swap item) :
    Found.ofItem (item.edit swap) = Found.ofItem item := by
  cases item with
  | text value extent =>
    have hstart : extent.start ≠ swap.here.length := by
      intro same
      have hcount := spared.without
      rw [Item.count_text, if_pos same] at hcount
      cases hcount
    rw [Item.edit_text, if_neg hstart]
    rfl
  | number value extent => cases value <;> simp [Found.ofItem]
  | boolean | moment | array | table | tables => simp [Found.ofItem]

/-- The complaint that an item is not what is wanted. -/
theorem Spared.mismatch {α : Type} {alike : α → α → Prop} {item : Item} (spared : Spared swap item)
    {place : Extent} (beside : swap.Beside place) (wanted : Wanted) :
    Paired swap alike (.error (mismatch wanted place item))
      (.error (Settings.mismatch wanted (swap.moveExtent place) (item.edit swap))) := by
  have hextent : (item.edit swap).extent?.getD (swap.moveExtent place) =
      swap.moveExtent (item.extent?.getD place) := by
    rw [Item.extent?_edit]
    cases item.extent? <;> rfl
  have hregular : swap.Regular (item.extent?.getD place) := by
    cases h : item.extent? with
    | none => exact beside.regular
    | some extent =>
      obtain ⟨clear, begins⟩ := spared.placed.extent h
      exact ⟨clear, begins spared.without⟩
  unfold Settings.mismatch
  rw [hextent, spared.found]
  exact .error hregular

/-- An item without the text is decoded as a text in the same way in both documents. -/
theorem Spared.text {item : Item} (spared : Spared swap item) {place : Extent}
    (beside : swap.Beside place) :
    Paired swap Eq (decodeText place item)
      (decodeText (swap.moveExtent place) (item.edit swap)) := by
  have hmismatch : Paired swap (@Eq String) _ _ := spared.mismatch beside .text
  have hfound := spared.found
  cases item with
  | text value extent =>
    rw [Item.edit_text] at hfound ⊢
    injection hfound with hvalue
    rw [hvalue]
    exact .ok rfl
  | number | boolean | moment | array | table | tables =>
    simpa [decodeText] using hmismatch

/-- An item without the text is decoded as a number of seconds in the same way in both documents. -/
theorem Spared.seconds {item : Item} (spared : Spared swap item) {place : Extent}
    (beside : swap.Beside place) :
    Paired swap Eq (decodeSeconds place item)
      (decodeSeconds (swap.moveExtent place) (item.edit swap)) := by
  have hmismatch : Paired swap (@Eq Nat) _ _ := spared.mismatch beside .seconds
  have hplaced := spared.placed
  cases item with
  | number number extent =>
    cases number with
    | integer value =>
      cases hplaced with
      | number own =>
        by_cases negative : value < 0
        · simp only [Item.edit_number, decodeSeconds, if_pos negative]
          exact .error own.regular
        · simp only [Item.edit_number, decodeSeconds, if_neg negative]
          exact .ok rfl
    | real value => simpa [decodeSeconds] using hmismatch
  | text | boolean | moment | array | table | tables =>
    simpa [decodeSeconds] using hmismatch

/-- What is decoded in a position of an array, or is built in. -/
theorem Paired.at {α : Type} {alike : α → α → Prop}
    {decode : Extent → Item → Except Mismatch α} {place : Extent} {items : List Item}
    {position : Nat} {builtIn : α} (same : alike builtIn builtIn)
    (each : ∀ item, items[position]? = some item →
      Paired swap alike (decode place item)
        (decode (swap.moveExtent place) (item.edit swap))) :
    Paired swap alike (decodeAt decode place items position builtIn)
      (decodeAt decode (swap.moveExtent place) (items.map (Item.edit swap)) position builtIn) := by
  unfold decodeAt
  rw [List.getElem?_map]
  cases h : items[position]? with
  | none => exact .ok same
  | some item => exact each item h

/-! ## Sections -/

/-- The shape of a section of the edited document. -/
def Shape.edit (swap : Swap) : Shape → Shape
  | .named entries => .named (entries.edit swap)
  | .ordered items => .ordered (items.map (Item.edit swap))

/-- An edited item has the edited shape of the item. -/
theorem Shape.ofItem?_edit (item : Item) :
    Shape.ofItem? (item.edit swap) = (Shape.ofItem? item).map (Shape.edit swap) := by
  cases item <;> simp [Shape.ofItem?, Shape.edit]

/-- How many texts in a section begin where the text does. -/
def Shape.count (swap : Swap) : Shape → Nat
  | .named entries => entries.count swap
  | .ordered items => (items.map (Item.count swap)).sum

/-- The text occurs in the shape of an item as often as in the item. -/
theorem Shape.count_of_ofItem? {item : Item} {shape : Shape} (h : Shape.ofItem? item = some shape) :
    shape.count swap = item.count swap := by
  cases item <;> simp [Shape.ofItem?] at h <;> subst h <;> simp [Shape.count]

/-- The entries or items of a section are placed. -/
def Shape.Placed (swap : Swap) (begins : Nat → Prop) : Shape → Prop
  | .named entries => entries.Placed swap begins
  | .ordered items => ∀ item ∈ items, item.Placed swap begins

/-- What is in the shape of a placed item is placed. -/
theorem Shape.placed_of_ofItem? {begins : Nat → Prop} {item : Item} {shape : Shape}
    (placed : item.Placed swap begins) (h : Shape.ofItem? item = some shape) :
    shape.Placed swap begins := by
  cases item with
  | text | number | boolean => cases h
  | moment =>
    cases h
    exact .nil
  | table =>
    cases h
    exact placed.entries
  | array =>
    cases h
    cases placed with
    | array each => exact each
  | tables =>
    cases h
    cases placed with
    | tables each => exact each

/-- The text occurs in an item no more often than in a list with the item. -/
theorem count_le_of_mem (swap : Swap) {items : List Item} {item : Item} (member : item ∈ items) :
    item.count swap ≤ (items.map (Item.count swap)).sum :=
  List.le_sum_of_mem (List.mem_map_of_mem member)

/-- The text occurs in an entry no more often than in the table of the entry. -/
theorem count_le_of_mem_entries (swap : Swap) {entries : Entries} {entry : Key × Item}
    (member : entry ∈ entries) : entry.2.count swap ≤ entries.count swap :=
  List.le_sum_of_mem (List.mem_map_of_mem (f := fun entry => entry.2.count swap) member)

/-- The entries of an item without the text are without it, and so are their keys. -/
theorem Spared.entry {item : Item} (spared : Spared swap item) {entries : Entries}
    (h : Shape.ofItem? item = some (.named entries)) {entry : Key × Item} (member : entry ∈ entries) :
    swap.Beside entry.1.extent ∧ Spared swap entry.2 := by
  obtain ⟨beside, placed⟩ := Shape.placed_of_ofItem? spared.placed h entry member
  have hcount : entries.count swap = 0 := (Shape.count_of_ofItem? h).trans spared.without
  have hentry := count_le_of_mem_entries swap member
  exact ⟨beside, placed, by omega⟩

/-- The items of a list without the text are without it. -/
theorem Spared.item {item : Item} (spared : Spared swap item) {items : List Item}
    (h : Shape.ofItem? item = some (.ordered items)) {inner : Item} (member : inner ∈ items) :
    Spared swap inner := by
  have hcount : (items.map (Item.count swap)).sum = 0 :=
    (Shape.count_of_ofItem? h).trans spared.without
  have hinner := count_le_of_mem swap member
  exact ⟨Shape.placed_of_ofItem? spared.placed h inner member, by omega⟩

/-- What decodes an item by its shape, if it does so in pairs for every shape. -/
theorem Paired.ofShape {σ : Type} {alike : σ → σ → Prop} {item : Item}
    {complaint moved : Mismatch} {named : Entries → Except Mismatch σ}
    {ordered orderedMoved : List Item → Except Mismatch σ}
    (hnone : Shape.ofItem? item = none → Paired swap alike (.error complaint) (.error moved))
    (hnamed : ∀ entries, Shape.ofItem? item = some (.named entries) →
      Paired swap alike (named entries) (named (entries.edit swap)))
    (hordered : ∀ items, Shape.ofItem? item = some (.ordered items) →
      Paired swap alike (ordered items) (orderedMoved (items.map (Item.edit swap)))) :
    Paired swap alike
      (match Shape.ofItem? item with
        | none => Except.error complaint
        | some (.named entries) => named entries
        | some (.ordered items) => ordered items)
      (match Shape.ofItem? (item.edit swap) with
        | none => Except.error moved
        | some (.named entries) => named entries
        | some (.ordered items) => orderedMoved items) := by
  rw [Shape.ofItem?_edit]
  cases h : Shape.ofItem? item with
  | none => exact hnone h
  | some shape =>
    cases shape with
    | named entries => exact hnamed entries h
    | ordered items => exact hordered items h

/-- What decodes a section with a single text, in an item that is without the replaced one. -/
theorem Spared.section {σ : Type} {item : Item} (spared : Spared swap item) {place : Extent}
    (beside : swap.Beside place) {wanted : Wanted} {take : σ → Key × Item → Except Mismatch σ}
    {builtIn : σ} {text : String} {make : String → σ}
    (each : ∀ {entry : Key × Item}, swap.Beside entry.1.extent → Spared swap entry.2 → ∀ current,
      Paired swap Eq (take current entry)
        (take current (swap.editKey entry.1, entry.2.edit swap))) :
    Paired swap Eq
      (match Shape.ofItem? item with
        | none => Except.error (Settings.mismatch wanted place item)
        | some (.named entries) => entries.foldlM take builtIn
        | some (.ordered items) => do
          let value ← decodeAt decodeText place items 0 text
          return make value)
      (match Shape.ofItem? (item.edit swap) with
        | none => Except.error (Settings.mismatch wanted (swap.moveExtent place) (item.edit swap))
        | some (.named entries) => entries.foldlM take builtIn
        | some (.ordered items) => do
          let value ← decodeAt decodeText (swap.moveExtent place) items 0 text
          return make value) := by
  apply Paired.ofShape
  · intro _
    exact spared.mismatch beside wanted
  · intro entries h
    refine Paired.run ?_ _ _ rfl
    rintro entry member current _ rfl
    obtain ⟨hkey, hentry⟩ := spared.entry h member
    exact each hkey hentry current
  · intro items h
    refine (Paired.at rfl fun inner hinner => ?_).bind ?_
    · exact (spared.item h (List.mem_of_getElem? hinner)).text beside
    · rintro value _ rfl
      exact .ok rfl

/-- A telnet section without the text is decoded in the same way in both documents. -/
theorem TelnetSection.decode_paired {item : Item} (spared : Spared swap item) {place : Extent}
    (beside : swap.Beside place) :
    Paired swap Eq (decode place item) (decode (swap.moveExtent place) (item.edit swap)) := by
  apply spared.section beside
  intro entry hkey hentry current
  refine Paired.field (fun _ => hentry.text hkey) ?_ fun _ => .ok rfl
  rintro listen _ rfl
  rfl

/-- A logging section without the text is decoded in the same way in both documents. -/
theorem LoggingSection.decode_paired {item : Item} (spared : Spared swap item) {place : Extent}
    (beside : swap.Beside place) :
    Paired swap Eq (decode place item) (decode (swap.moveExtent place) (item.edit swap)) := by
  apply spared.section beside
  intro entry hkey hentry current
  refine Paired.field (fun _ => hentry.text hkey) ?_ fun _ => .ok rfl
  rintro level _ rfl
  rfl

/-- The fields of an item are those of its shape. -/
theorem fieldOf?_of_shape {item : Item} {shape : Shape} (h : Shape.ofItem? item = some shape) :
    fieldOf? (some item) = shape.field? := by
  funext name position
  simp [fieldOf?, h]

/-- The fields of a section hold the text as the password, and nowhere else. -/
structure HoldsPassword (swap : Swap) (fields : Fields) : Prop where
  password : ∃ value extent, fields "password" 2 = some (.text value extent)
  others : ∀ name position item, name ≠ "password" → position ≠ 2 →
    fields name position = some item → item.count swap = 0

/-- The password is a text in both documents. -/
theorem HoldsPassword.text {fields : Fields} (holds : HoldsPassword swap fields) {item : Item}
    (found : fields "password" 2 = some item) (place : Extent) :
    Paired swap (fun _ _ => True) (decodeText place item)
      (decodeText (swap.moveExtent place) (item.edit swap)) := by
  obtain ⟨value, extent, same⟩ := holds.password
  rw [Option.some.inj (found.symm.trans same), Item.edit_text]
  exact .ok trivial

namespace SshSection

/-- Sections that agree but for the password. -/
def Alike (one other : SshSection) : Prop := ∃ password, other = { one with password }

/-- An entry of the section that holds the password is taken in the same way in both documents. -/
theorem take_paired {entries : Entries} (distinct : entries.Distinct)
    (placed : entries.Placed swap (BlankBefore (swap.before ++ swap.here)))
    (holds : HoldsPassword swap (Shape.named entries).field?) :
    ∀ entry ∈ entries, ∀ one other, Alike one other →
      Paired swap Alike (take one entry)
        (take other (swap.editKey entry.1, entry.2.edit swap)) := by
  rintro entry member one _ ⟨password, rfl⟩
  obtain ⟨beside, hplaced⟩ := placed entry member
  have found : entries.find? entry.1.name = some entry.2 := distinct.find?_of_mem member
  have spared : entry.1.name ≠ "password" → Spared swap entry.2 := fun other =>
    ⟨hplaced, holds.others _ 0 _ other (by decide) found⟩
  refine Paired.field (fun named => (spared (by rw [named]; decide)).text beside) ?_ fun _ => ?_
  · rintro listen _ rfl
    exact ⟨password, rfl⟩
  refine Paired.field (fun named => (spared (by rw [named]; decide)).text beside) ?_ fun _ => ?_
  · rintro username _ rfl
    exact ⟨password, rfl⟩
  refine Paired.field (fun named => holds.text (named ▸ found) entry.1.extent) ?_ fun hother => ?_
  · rintro value moved -
    exact ⟨moved, rfl⟩
  refine Paired.field (fun _ => (spared hother).seconds beside) ?_ fun _ => .ok ⟨password, rfl⟩
  rintro timeout _ rfl
  exact ⟨password, rfl⟩

/-- The section that holds the password is decoded in the same way in both documents. -/
theorem decode_paired {item : Item} (distinct : item.Distinct)
    (placed : item.Placed swap (BlankBefore (swap.before ++ swap.here)))
    (holds : HoldsPassword swap (fieldOf? (some item))) {place : Extent}
    (beside : swap.Beside place) :
    Paired swap Alike (decode place item) (decode (swap.moveExtent place) (item.edit swap)) := by
  apply Paired.ofShape
  · intro h
    obtain ⟨value, extent, same⟩ := holds.password
    simp [fieldOf?, h] at same
  · intro entries h
    rw [fieldOf?_of_shape h] at holds
    exact Paired.run (take_paired (Shape.distinct_of_named distinct h)
      (Shape.placed_of_ofItem? placed h) holds) _ _ ⟨_, rfl⟩
  · intro items h
    rw [fieldOf?_of_shape h] at holds
    have spared : ∀ {position inner}, position ≠ 2 → items[position]? = some inner →
        Spared swap inner := fun other found =>
      ⟨Shape.placed_of_ofItem? placed h _ (List.mem_of_getElem? found),
        holds.others "" _ _ (by decide) other found⟩
    refine (Paired.at rfl fun _ found => (spared (by decide) found).text beside).bind ?_
    rintro listen _ rfl
    refine (Paired.at rfl fun _ found => (spared (by decide) found).text beside).bind ?_
    rintro username _ rfl
    refine (Paired.at trivial fun _ found => holds.text found place).bind ?_
    rintro password moved -
    refine (Paired.at rfl fun _ found => (spared (by decide) found).seconds beside).bind ?_
    rintro timeout _ rfl
    exact .ok ⟨moved, rfl⟩

end SshSection

/-! ## Where the password is -/

/-- The fields of an edited shape are the edited fields. -/
theorem Shape.edit_field? (shape : Shape) (name : String) (position : Nat) :
    (shape.edit swap).field? name position = (shape.field? name position).map (Item.edit swap) := by
  cases shape with
  | named entries => exact Entries.find?_edit swap entries name
  | ordered items => exact List.getElem?_map

/-- The fields of an edited section are the edited fields. -/
theorem fieldOf?_edit (item? : Option Item) (name : String) (position : Nat) :
    fieldOf? (item?.map (Item.edit swap)) name position =
      (fieldOf? item? name position).map (Item.edit swap) := by
  cases item? with
  | none => rfl
  | some item =>
    simp only [fieldOf?, Option.map_some, Option.bind_some, Shape.ofItem?_edit]
    cases Shape.ofItem? item with
    | none => rfl
    | some shape => exact shape.edit_field? name position

/-- If all of the texts counted in a list are in one position, there are none in the others. -/
theorem count_elsewhere {items : List Item} {position : Nat} {item : Item}
    (found : items[position]? = some item)
    (all : (items.map (Item.count swap)).sum ≤ item.count swap) {other : Nat} {inner : Item}
    (apart : other ≠ position) (hinner : items[other]? = some inner) : inner.count swap = 0 := by
  induction items generalizing position other with
  | nil => cases found
  | cons first items ih =>
    rw [List.map_cons, List.sum_cons] at all
    cases position with
    | zero =>
      cases found
      cases other with
      | zero => exact absurd rfl apart
      | succ other =>
        rw [List.getElem?_cons_succ] at hinner
        have hle := count_le_of_mem swap (List.mem_of_getElem? hinner)
        omega
    | succ position =>
      rw [List.getElem?_cons_succ] at found
      cases other with
      | zero =>
        cases hinner
        have hle := count_le_of_mem swap (List.mem_of_getElem? found)
        omega
      | succ other =>
        exact ih found (by omega) (fun same => apart (by rw [same])) hinner

/-- If all of the texts counted in a table are under one name, there are none under the others. -/
theorem count_under_others {entries : Entries} (distinct : entries.Distinct) {name : String}
    {item : Item} (found : entries.find? name = some item)
    (all : entries.count swap ≤ item.count swap) {entry : Key × Item} (member : entry ∈ entries)
    (apart : entry.1.name ≠ name) : entry.2.count swap = 0 := by
  have hcount := Entries.count_remove swap distinct.names found
  have hmember : entry ∈ entries.remove name :=
    List.mem_filter.mpr ⟨member, by simpa using apart⟩
  have hle := count_le_of_mem_entries swap hmember
  omega

/-- A text that is counted in a field is counted in the section. -/
theorem count_field_le {shape : Shape} {name : String} {position : Nat} {item : Item}
    (h : shape.field? name position = some item) : item.count swap ≤ shape.count swap := by
  cases shape with
  | named entries =>
    obtain ⟨key, -, member⟩ := Entries.mem_of_find? h
    exact count_le_of_mem_entries swap member
  | ordered items => exact count_le_of_mem swap (List.mem_of_getElem? h)

/-- A section that has the text as its password, and in which all texts counted are the password. -/
theorem holdsPassword_of_count {shape : Shape} {value : String} {extent : Extent}
    (distinct : ∀ entries, shape = .named entries → entries.Distinct)
    (given : shape.field? "password" 2 = some (.text value extent))
    (all : shape.count swap ≤ (Item.text value extent).count swap) :
    HoldsPassword swap shape.field? where
  password := ⟨value, extent, given⟩
  others name position item hname hposition found := by
    cases shape with
    | named entries =>
      obtain ⟨key, rfl, member⟩ := Entries.mem_of_find? found
      exact count_under_others (distinct entries rfl) given all member hname
    | ordered items => exact count_elsewhere given all hposition found

/-! ## Files -/

namespace File

/-- Files that agree but for the password. -/
def Alike (one other : File) : Prop :=
  ∃ password, other = { one with ssh := { one.ssh with password } }

/-- A section of a file whose password is the text is taken in the same way in both documents. -/
theorem take_paired {entries : Entries} (distinct : entries.Distinct)
    (placed : entries.Placed swap (BlankBefore (swap.before ++ swap.here))) {item : Item}
    (ssh : entries.find? "ssh" = some item) (holds : HoldsPassword swap (fieldOf? (some item)))
    (all : entries.count swap ≤ item.count swap) :
    ∀ entry ∈ entries, ∀ one other, Alike one other →
      Paired swap Alike (take one entry)
        (take other (swap.editKey entry.1, entry.2.edit swap)) := by
  rintro entry member one _ ⟨password, rfl⟩
  obtain ⟨beside, hplaced⟩ := placed entry member
  have spared : entry.1.name ≠ "ssh" → Spared swap entry.2 := fun other =>
    ⟨hplaced, count_under_others distinct ssh all member other⟩
  refine Paired.field (fun named => TelnetSection.decode_paired (spared (by rw [named]; decide))
    beside) ?_ fun _ => ?_
  · rintro telnet _ rfl
    exact ⟨password, rfl⟩
  have hssh : entry.1.name = "ssh" → Paired swap SshSection.Alike
      (SshSection.decode entry.1.extent entry.2)
      (SshSection.decode (swap.moveExtent entry.1.extent) (entry.2.edit swap)) := by
    intro named
    have found : entries.find? entry.1.name = some entry.2 := distinct.find?_of_mem member
    rw [named] at found
    cases Option.some.inj (ssh.symm.trans found)
    exact SshSection.decode_paired (distinct.each entry member) hplaced holds beside
  refine Paired.field hssh ?_ fun hother => ?_
  · rintro part _ ⟨moved, rfl⟩
    exact ⟨moved, rfl⟩
  refine Paired.field (fun _ => LoggingSection.decode_paired (spared hother) beside) ?_
    fun _ => .ok ⟨password, rfl⟩
  rintro logging _ rfl
  exact ⟨password, rfl⟩

end File

/-- The password of a document is the text. -/
def PasswordIs (swap : Swap) (entries : Entries) (value : String) : Prop :=
  fieldOf? (entries.find? "ssh") "password" 2 =
    some (.text value ⟨swap.here.length, swap.after.length⟩)

section Password

variable {entries : Entries} {value : String}

/-- The password that is given is a field of the section for SSH, and it stands where the text is.
-/
theorem PasswordIs.field (given : PasswordIs swap entries value) :
    ∃ item shape, entries.find? "ssh" = some item ∧ Shape.ofItem? item = some shape ∧
      shape.field? "password" 2 = some (.text value ⟨swap.here.length, swap.after.length⟩) := by
  obtain ⟨shape, hshape, hfield⟩ := Option.bind_eq_some_iff.mp given
  obtain ⟨item, hitem, hshape⟩ := Option.bind_eq_some_iff.mp hshape
  exact ⟨item, shape, hitem, hshape, hfield⟩

/-- The password of the edited document is the other text. -/
theorem PasswordIs.edit (given : PasswordIs swap entries value) :
    fieldOf? ((entries.edit swap).find? "ssh") "password" 2 =
      some (.text (String.ofList swap.newText)
        (swap.moveExtent ⟨swap.here.length, swap.after.length⟩)) := by
  rw [Entries.find?_edit, fieldOf?_edit, given, Option.map_some, Item.edit_text, if_pos rfl]

/-- The password is counted in its section. -/
theorem PasswordIs.one_le (given : PasswordIs swap entries value) :
    ∃ item, entries.find? "ssh" = some item ∧ 1 ≤ item.count swap := by
  obtain ⟨item, shape, hitem, hshape, hfield⟩ := given.field
  refine ⟨item, hitem, ?_⟩
  rw [← Shape.count_of_ofItem? hshape]
  have hcount : (Item.text value _).count swap ≤ shape.count swap := count_field_le hfield
  rwa [Item.count_text, if_pos rfl] at hcount

/-- A document that gives the password has the text in it. -/
theorem PasswordIs.counted (given : PasswordIs swap entries value) : entries.count swap ≠ 0 := by
  obtain ⟨item, hitem, hone⟩ := given.one_le
  obtain ⟨key, -, member⟩ := Entries.mem_of_find? hitem
  have hle := count_le_of_mem_entries swap member
  simp only at hle
  omega

/-- A document in which the text is the password and nothing else is decoded in the same way with
another password. -/
theorem File.ofEntries_paired (distinct : entries.Distinct)
    (placed : entries.Placed swap (BlankBefore (swap.before ++ swap.here)))
    (once : entries.count swap = 1) (given : PasswordIs swap entries value) :
    Paired swap Alike (ofEntries entries) (ofEntries (entries.edit swap)) := by
  obtain ⟨item, shape, hitem, hshape, hfield⟩ := given.field
  obtain ⟨item', hitem', hone⟩ := given.one_le
  cases Option.some.inj (hitem.symm.trans hitem')
  obtain ⟨key, -, member⟩ := Entries.mem_of_find? hitem
  have hle := count_le_of_mem_entries swap member
  have holds : HoldsPassword swap (fieldOf? (some item)) := by
    rw [fieldOf?_of_shape hshape]
    refine holdsPassword_of_count (fun entries same => ?_) hfield ?_
    · exact Shape.distinct_of_named (distinct.item hitem) (hshape.trans (congrArg some same))
    · rw [Shape.count_of_ofItem? hshape, Item.count_text, if_pos rfl, ← once]
      exact hle
  exact Paired.run (take_paired distinct placed hitem holds (by omega)) _ _ ⟨_, rfl⟩

/-- A file has the password of its document. -/
theorem File.password_eq (distinct : entries.Distinct) {extent : Extent}
    (given : fieldOf? (entries.find? "ssh") "password" 2 = some (.text value extent)) {file : File}
    (accepted : ofEntries entries = .ok file) : file.ssh.password = value := by
  have hssh := ((ofEntries_eq_ok_iff distinct).mp accepted).ssh
  have hpassword := ((decodes_section_iff SshSection.is_none_iff).mp hssh).2.password
  rw [given] at hpassword
  obtain ⟨_, same⟩ := hpassword
  cases same
  rfl

end Password

end PongFixture.Settings

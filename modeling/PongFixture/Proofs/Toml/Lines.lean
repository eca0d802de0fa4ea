import Mathlib.Data.List.Nodup
import Mathlib.Data.List.TakeWhile
import PongFixture.Proofs.Toml.Invariant
import PongFixture.Proofs.Toml.Scalars
import PongFixture.Toml.Writer

/-!
# Written lines read back

A line that is written is read back as the statement that it writes: its keys have their names, and
its item is what was written, apart from the stretch of text that it was read from. Each reader is
followed on what its writer puts down, with any text after it that cannot be taken for more of the
same.
-/

set_option autoImplicit false

namespace PongFixture.Toml

open Numeral

/-- What is written can be read where values may be nested so deep: the numbers are in range, and
no table has a key twice. -/
inductive Written.Fits : Nat → Written → Prop
  | text (depth : Nat) (value : String) : Fits depth (.text value)
  | number (depth : Nat) {value : Nat} (bounded : value < integerBound) : Fits depth (.number value)
  | boolean (depth : Nat) (value : Bool) : Fits depth (.boolean value)
  | array {depth : Nat} {items : List Written} (each : ∀ item ∈ items, Fits depth item) :
      Fits (depth + 1) (.array items)
  | table {depth : Nat} {pairs : List (String × Written)} (names : (pairs.map Prod.fst).Nodup)
      (each : ∀ pair ∈ pairs, Fits depth pair.2) : Fits (depth + 1) (.table pairs)

mutual

/-- An item is what is written. A table has the entries that are written, whatever its form is. -/
inductive Written.Denotes : Written → Item → Prop
  | text (value : String) (extent : Extent) : Written.Denotes (.text value) (.text value extent)
  | number (value : Nat) (extent : Extent) :
      Written.Denotes (.number value) (.number (.integer value) extent)
  | boolean (value : Bool) (extent : Extent) :
      Written.Denotes (.boolean value) (.boolean value extent)
  | array {written : List Written} {items : List Item} (extent : Extent)
      (each : List.Forall₂ Written.Denotes written items) :
      Written.Denotes (.array written) (.array items extent)
  | table {pairs : List (String × Written)} {entries : Entries} (form : TableForm)
      (extent : Option Extent) (lists : Lists pairs entries) :
      Written.Denotes (.table pairs) (.table form entries extent)

/-- The entries of a table are the pairs that are written, in their order. -/
inductive Lists : List (String × Written) → Entries → Prop
  | nil : Lists [] []
  | cons (key : Key) {value : Written} {item : Item} {pairs : List (String × Written)}
      {entries : Entries} (first : value.Denotes item) (rest : Lists pairs entries) :
      Lists ((key.name, value) :: pairs) ((key, item) :: entries)

end

/-- A reader of items reads back what is written. -/
def ReadsBack (element : ItemReader) (written : Written) : Prop :=
  ∀ rest : List Char, EndsValue rest →
    ∃ item, element (written.print ++ rest) = some (item, rest) ∧ written.Denotes item

/-! ## Where readers begin -/

/-- A value begins with this. -/
def StartsValue (c : Char) : Prop :=
  c = '"' ∨ c = '[' ∨ c = '\x7b' ∨ c = 't' ∨ c = 'f' ∨ isDigit 10 c = true

/-- A value begins with no other characters. -/
theorem StartsValue.ne {c d : Char} (h : StartsValue c)
    (other : d ≠ '"' ∧ d ≠ '[' ∧ d ≠ '\x7b' ∧ d ≠ 't' ∧ d ≠ 'f' ∧ isDigit 10 d = false) :
    c ≠ d := by
  rintro rfl
  obtain ⟨hquote, hbracket, hbrace, htrue, hfalse, hdigit⟩ := other
  rcases h with h | h | h | h | h | h
  · exact hquote h
  · exact hbracket h
  · exact hbrace h
  · exact htrue h
  · exact hfalse h
  · rw [hdigit] at h
    cases h

/-- A whole number has at least one digit. -/
theorem decimal_cons (n : Nat) :
    ∃ d ds, decimal n = d :: ds ∧ isDigit 10 d = true ∧ ∀ c ∈ ds, isDigit 10 c = true := by
  obtain ⟨d, ds, hcons⟩ := List.exists_cons_of_ne_nil (digits_ne_nil n : digits 10 n ≠ [])
  have hdigits : ∀ c ∈ digits 10 n, isDigit 10 c = true :=
    isDigit_of_mem_digits (by decide) (by decide) n
  rw [hcons] at hdigits
  exact ⟨d, ds, hcons, hdigits d List.mem_cons_self,
    fun c hc => hdigits c (List.mem_cons_of_mem _ hc)⟩

/-- Every value that is written begins in one of the ways that values do. -/
theorem Written.print_cons (written : Written) :
    ∃ c later, written.print = c :: later ∧ StartsValue c := by
  cases written with
  | text value => exact ⟨_, _, by rw [Written.print, writeText], .inl rfl⟩
  | number value =>
    obtain ⟨d, ds, hcons, hdigit, -⟩ := decimal_cons value
    refine ⟨d, ds, by rw [Written.print, hcons], ?_⟩
    exact .inr (.inr (.inr (.inr (.inr hdigit))))
  | boolean value =>
    cases value
    · exact ⟨_, _, by rw [Written.print]; rfl, .inr (.inr (.inr (.inr (.inl rfl))))⟩
    · exact ⟨_, _, by rw [Written.print]; rfl, .inr (.inr (.inr (.inl rfl)))⟩
  | array items => exact ⟨_, _, by rw [Written.print], .inr (.inl rfl)⟩
  | table pairs => exact ⟨_, _, by rw [Written.print], .inr (.inr (.inl rfl))⟩

/-- Nothing is skipped in front of a character that is no blank. -/
theorem skipSpaces_of_head {c : Char} {cs : List Char} (h : isSpace c = false) :
    skipSpaces (c :: cs) = c :: cs := by
  simp [skipSpaces, h]

/-- No value begins with a blank. -/
theorem StartsValue.isSpace {c : Char} (h : StartsValue c) : isSpace c = false := by
  have hblank : c ≠ ' ' := h.ne (by decide)
  have htab : c ≠ '\t' := h.ne (by decide)
  simp [Toml.isSpace, hblank, htab]

/-- No gap is in front of a value. -/
theorem StartsValue.skipGaps {c : Char} (h : StartsValue c) (cs : List Char) :
    skipGaps false (c :: cs) = c :: cs := by
  have hreturn : c ≠ '\r' := h.ne (by decide)
  have hmark : c ≠ '#' := h.ne (by decide)
  have hline : c ≠ '\n' := h.ne (by decide)
  rw [Toml.skipGaps]
  · simp [h.isSpace, hmark]
  · exact hline
  · exact fun _ same => absurd same hreturn

/-- No gap is in front of a value that is written. -/
theorem Written.skipGaps_print (written : Written) (rest : List Char) :
    skipGaps false (written.print ++ rest) = written.print ++ rest := by
  obtain ⟨c, later, hcons, starts⟩ := written.print_cons
  rw [hcons, List.cons_append]
  exact starts.skipGaps _

/-- No blank is in front of a value that is written. -/
theorem Written.skipSpaces_print (written : Written) (rest : List Char) :
    skipSpaces (written.print ++ rest) = written.print ++ rest := by
  obtain ⟨c, later, hcons, starts⟩ := written.print_cons
  rw [hcons, List.cons_append]
  exact skipSpaces_of_head starts.isSpace

/-! ## Values without parts -/

/-- A text that is written is read as an item. -/
theorem readScalar_text (value : String) {rest : List Char} (ends : EndsValue rest) :
    ∃ extent, readScalar (writeText value.toList ++ rest) = some (.text value extent, rest) := by
  have htext := readText_writeText value.toList (ends.head?_ne (c := '"') (by decide))
  refine ⟨extentOf (writeText value.toList ++ rest) rest, ?_⟩
  unfold writeText at htext ⊢
  rw [List.cons_append] at htext ⊢
  simp only [readScalar, true_or, if_true, htext, Option.map_some, String.ofList_toList]

/-- A whole number that is written is read back. -/
theorem readNumber_decimal {n : Nat} (bounded : n < integerBound) {rest : List Char}
    (ends : EndsValue rest) : readNumber (decimal n ++ rest) = some (.integer n, rest) := by
  obtain ⟨d, ds, hcons, hdigit, hlater⟩ := decimal_cons n
  have hmagnitude := readMagnitude_decimal bounded ends
  -- No mark of another base comes second.
  have hbase : ∀ mark cs, isDigit 10 mark = false →
      (mark ≠ '\n' ∧ mark ≠ ',' ∧ mark ≠ ']' ∧ mark ≠ '\x7d') →
      decimal n ++ rest ≠ '0' :: mark :: cs := by
    intro mark cs hmark hother same
    rw [hcons, List.cons_append, List.cons.injEq] at same
    cases ds with
    | nil => exact ends.head?_ne hother (congrArg List.head? same.2)
    | cons second ds =>
      obtain rfl : second = mark := (List.cons.inj same.2).1
      rw [hlater second List.mem_cons_self] at hmark
      cases hmark
  have hsign : readSign (decimal n ++ rest) = (none, decimal n ++ rest) := by
    rw [hcons, List.cons_append]
    unfold readSign
    split
    · next same => cases same; cases hdigit
    · next same => cases same; cases hdigit
    · rfl
  unfold readNumber
  split
  · next same => exact absurd same (hbase 'x' _ rfl (by decide))
  · next same => exact absurd same (hbase 'o' _ rfl (by decide))
  · next same => exact absurd same (hbase 'b' _ rfl (by decide))
  · rw [hsign]
    simp only
    split
    · next same => rw [hcons] at same; cases same; cases hdigit
    · next same => rw [hcons] at same; cases same; cases hdigit
    · exact hmagnitude

/-- A whole number that is written is read as an item. -/
theorem readScalar_decimal {n : Nat} (bounded : n < integerBound) {rest : List Char}
    (ends : EndsValue rest) :
    ∃ extent, readScalar (decimal n ++ rest) = some (.number (.integer n) extent, rest) := by
  obtain ⟨d, ds, hcons, hdigit, hlater⟩ := decimal_cons n
  have hnumber := readNumber_decimal bounded ends
  have hdigits : ∀ c ∈ decimal n, isDigit 10 c = true :=
    isDigit_of_mem_digits (by decide) (by decide) n
  have hmoment := readMoment_digits hdigits ends
  have hne : ∀ c, isDigit 10 c = false → d ≠ c := by
    rintro c hc rfl
    rw [hdigit] at hc
    cases hc
  refine ⟨extentOf (decimal n ++ rest) rest, ?_⟩
  rw [hcons, List.cons_append] at hnumber hmoment ⊢
  simp [readScalar, hne '"' rfl, hne '\'' rfl, hne 't' rfl, hne 'f' rfl, hmoment, hnumber]

/-- A truth value that is written is read as an item. -/
theorem readScalar_boolean (value : Bool) (rest : List Char) :
    ∃ extent, readScalar ((if value then "true" else "false").toList ++ rest) =
      some (.boolean value extent, rest) := by
  cases value
  · exact ⟨_, by simp [readScalar, expectWord, expect]; rfl⟩
  · exact ⟨_, by simp [readScalar, expectWord, expect]; rfl⟩

/-- What begins with neither a bracket nor a brace is a scalar. -/
theorem readItem_of_scalar (depth : Nat) {c : Char} {cs : List Char} (noBracket : c ≠ '[')
    (noBrace : c ≠ '\x7b') : readItem depth (c :: cs) = readScalar (c :: cs) := by
  cases depth with
  | zero => rfl
  | succ depth =>
    unfold readItem
    split
    · next same => cases same; exact absurd rfl noBracket
    · next same => cases same; exact absurd rfl noBrace
    · rfl

/-! ## Arrays -/

section Items

variable {element : ItemReader} {cs begun left rest : List Char} {c : Char} {item : Item}

/-- An array may be closed at once. -/
theorem readItems_close (h : skipGaps false cs = ']' :: rest) :
    readItems element cs = some ([], rest) := by
  unfold readItems
  rw [h]
  rfl

/-- An array may be closed after an item. -/
theorem readItems_last (h : skipGaps false cs = c :: begun) (hclose : c ≠ ']')
    (hitem : element (c :: begun) = some (item, left)) (hleft : skipGaps false left = ']' :: rest) :
    readItems element cs = some ([item], rest) := by
  unfold readItems
  rw [h]
  split
  · next same => cases same; exact absurd rfl hclose
  · rw [hitem]
    simp only [hleft]

/-- After an item and a comma more items are read. -/
theorem readItems_more (h : skipGaps false cs = c :: begun) (hclose : c ≠ ']')
    (hitem : element (c :: begun) = some (item, left)) (hleft : skipGaps false left = ',' :: rest)
    (shorter : rest.length < cs.length) {items : List Item} {last : List Char}
    (hrest : readItems element rest = some (items, last)) :
    readItems element cs = some (item :: items, last) := by
  unfold readItems
  rw [h]
  split
  · next same => cases same; exact absurd rfl hclose
  · rw [hitem]
    simp only [hleft, if_pos shorter, hrest, Option.map_some]

end Items

/-- No gap is in front of items that are written. -/
theorem skipGaps_printItems (value : Written) (values : List Written) (rest : List Char) :
    skipGaps false (printItems (value :: values) ++ rest) =
      printItems (value :: values) ++ rest := by
  rw [printItems, List.append_assoc, List.append_assoc]
  exact value.skipGaps_print _

/-- The items of an array that are written are read back, if each of them is. -/
theorem readItems_print {element : ItemReader} {written : List Written}
    (each : ∀ value ∈ written, ReadsBack element value) (rest : List Char) :
    ∀ cs, skipGaps false cs = printItems written ++ ']' :: rest →
      (printItems written ++ ']' :: rest).length ≤ cs.length →
      ∃ items, readItems element cs = some (items, rest) ∧
        List.Forall₂ Written.Denotes written items := by
  -- What is left begins with the blank after a comma, so it is given by what it comes to.
  induction written with
  | nil =>
    intro cs hgaps _
    exact ⟨[], readItems_close hgaps, .nil⟩
  | cons value written ih =>
    intro cs hgaps hlength
    obtain ⟨c, later, hcons, starts⟩ := value.print_cons
    have hclose : c ≠ ']' := starts.ne (by decide)
    have hvalue := each value List.mem_cons_self
    cases written with
    | nil =>
      obtain ⟨item, hitem, hdenotes⟩ := hvalue (']' :: rest) (.cons (by decide) _)
      simp only [printItems, hcons, separator, List.isEmpty_nil, if_true, List.append_nil] at hgaps
      rw [hcons] at hitem
      exact ⟨[item], readItems_last hgaps hclose hitem rfl, .cons hdenotes .nil⟩
    | cons second written =>
      have hmore := ih fun other member => each other (List.mem_cons_of_mem _ member)
      have hstart := skipGaps_printItems second written (']' :: rest)
      rw [printItems] at hgaps hlength
      simp only [hcons, List.append_assoc] at hgaps hlength
      generalize printItems (second :: written) ++ ']' :: rest = remaining at *
      obtain ⟨item, hitem, hdenotes⟩ := hvalue (',' :: ' ' :: remaining) (.cons (by decide) _)
      rw [hcons] at hitem
      have hblank : skipGaps false (' ' :: remaining) = remaining := hstart
      obtain ⟨items, hitems, hall⟩ := hmore (' ' :: remaining) hblank (Nat.le_succ _)
      have shorter : (' ' :: remaining).length < cs.length := by
        simp [separator] at hlength ⊢
        omega
      exact ⟨item :: items, readItems_more hgaps hclose hitem rfl shorter hitems,
        .cons hdenotes hall⟩

/-! ## Keys and paths -/

/-- What follows a key cannot be taken for more of it. -/
def EndsKey (rest : List Char) : Prop := ∀ c ∈ rest.head?, isBareChar c = false

/-- A key needs no quotes if it has characters, and only such as may be in a bare key. -/
theorem isBareKey_iff {name : String} :
    isBareKey name = true ↔ name.toList ≠ [] ∧ ∀ c ∈ name.toList, isBareChar c = true := by
  simp [isBareKey]

/-- A key that is written begins with a quote or a character of a bare key. -/
theorem writeKey_cons (name : String) :
    ∃ c later, writeKey name = c :: later ∧ (c = '"' ∨ isBareChar c = true) := by
  unfold writeKey
  split
  · next bare =>
    obtain ⟨given, hall⟩ := isBareKey_iff.mp bare
    obtain ⟨c, later, hcons⟩ := List.exists_cons_of_ne_nil given
    refine ⟨c, later, hcons, .inr (hall c ?_)⟩
    rw [hcons]
    exact List.mem_cons_self
  · exact ⟨_, _, rfl, .inl rfl⟩

/-- The first character of a key is none that no key contains. -/
theorem startsKey_ne {c d : Char} (h : c = '"' ∨ isBareChar c = true)
    (other : d ≠ '"' ∧ isBareChar d = false) : c ≠ d := by
  rintro rfl
  rcases h with rfl | bare
  · exact other.1 rfl
  · rw [other.2] at bare
    cases bare

/-- No blank is in front of a key that is written. -/
theorem skipSpaces_writeKey (name : String) (rest : List Char) :
    skipSpaces (writeKey name ++ rest) = writeKey name ++ rest := by
  obtain ⟨c, later, hcons, starts⟩ := writeKey_cons name
  have hblank : c ≠ ' ' := startsKey_ne starts (by decide)
  have htab : c ≠ '\t' := startsKey_ne starts (by decide)
  rw [hcons, List.cons_append]
  exact skipSpaces_of_head (by simp [isSpace, hblank, htab])

/-- A key that is written is read back. -/
theorem readKey_writeKey (name : String) {rest : List Char} (ends : EndsKey rest) :
    ∃ key, readKey (writeKey name ++ rest) = some (key, rest) ∧ key.name = name := by
  unfold writeKey
  split
  · next bare =>
    obtain ⟨given, hall⟩ := isBareKey_iff.mp bare
    have hnone : rest.takeWhile isBareChar = [] ∧ rest.dropWhile isBareChar = rest := by
      cases rest with
      | nil => exact ⟨rfl, rfl⟩
      | cons c rest =>
        have hc := ends c rfl
        simp [hc]
    have noQuote : ∀ quote cs, isBareChar quote = false → name.toList ++ rest ≠ quote :: cs := by
      intro quote cs hquote same
      obtain ⟨c, later, hcons⟩ := List.exists_cons_of_ne_nil given
      rw [hcons, List.cons_append, List.cons.injEq] at same
      have hbare := hall c (hcons ▸ List.mem_cons_self)
      rw [same.1, hquote] at hbare
      cases hbare
    refine ⟨⟨name, extentOf (name.toList ++ rest) rest⟩, ?_, rfl⟩
    unfold readKey
    split
    · next same => exact absurd same (noQuote '"' _ rfl)
    · next same => exact absurd same (noQuote '\'' _ rfl)
    · simp only [List.takeWhile_append_of_pos hall, List.dropWhile_append_of_pos hall, hnone.1,
        hnone.2, List.append_nil, String.ofList_toList]
      rw [if_neg]
      simpa using given
  · have htext := readLineText_writeText name.toList rest
    refine ⟨⟨name, extentOf (writeText name.toList ++ rest) rest⟩, ?_, rfl⟩
    unfold writeText at htext ⊢
    rw [List.cons_append] at htext ⊢
    simp only [readKey, htext, Option.map_some, String.ofList_toList]

/-- A path has some names. -/
def Path.Names (found : Path) (path : List String) (key : String) : Prop :=
  found.before.map Key.name = path ∧ found.last.name = key

/-- The keys of a path that is written are read back, if so many may be read. -/
theorem readKeys_writePath (key : String) {rest : List Char} (ends : EndsKey rest)
    (noPoint : (skipSpaces rest).head? ≠ some '.') (path : List String) :
    ∀ {count : Nat}, path.length < count →
      ∃ found, readKeys count (writePath path key ++ rest) = some (found, skipSpaces rest) ∧
        found.Names path key := by
  induction path with
  | nil =>
    intro count hcount
    obtain ⟨more, rfl⟩ := Nat.exists_eq_succ_of_ne_zero (Nat.ne_of_gt hcount)
    obtain ⟨last, hlast, hname⟩ := readKey_writeKey key ends
    refine ⟨⟨[], last⟩, ?_, rfl, hname⟩
    show readKeys (more + 1) (writeKey key ++ rest) = _
    unfold readKeys
    rw [skipSpaces_writeKey, hlast]
    simp only
    split
    · next same =>
      rw [same] at noPoint
      exact absurd rfl noPoint
    · rfl
  | cons name path ih =>
    intro count hcount
    obtain ⟨more, rfl⟩ := Nat.exists_eq_succ_of_ne_zero (Nat.ne_of_gt (Nat.zero_lt_of_lt hcount))
    obtain ⟨found, hfound, hpath, hkey⟩ := ih (Nat.lt_of_succ_lt_succ hcount)
    have point : EndsKey ('.' :: (writePath path key ++ rest)) := by
      rintro _ ⟨⟩
      rfl
    obtain ⟨first, hfirst, hname⟩ := readKey_writeKey name point
    refine ⟨⟨first :: found.before, found.last⟩, ?_, ?_, hkey⟩
    · have hwritten : writePath (name :: path) key ++ rest =
          writeKey name ++ '.' :: (writePath path key ++ rest) := by
        simp [writePath]
      unfold readKeys
      rw [hwritten, skipSpaces_writeKey, hfirst]
      show (readKeys more (writePath path key ++ rest)).map _ = _
      rw [hfound]
      rfl
    · rw [List.map_cons, hpath, hname]

/-- A path that is written is read back, unless it is too long. -/
theorem readPath_writePath {path : List String} (short : path.length < maxDepth - 1) (key : String)
    {rest : List Char} (ends : EndsKey rest) (noPoint : (skipSpaces rest).head? ≠ some '.') :
    ∃ found, readPath (writePath path key ++ rest) = some (found, skipSpaces rest) ∧
      found.Names path key :=
  readKeys_writePath key ends noPoint path short

/-- A pair that is written is read back, if its item is. -/
theorem readPair_print {element : ItemReader} {value : Written} (reads : ReadsBack element value)
    {path : List String} (short : path.length < maxDepth - 1) (key : String) {rest : List Char}
    (ends : EndsValue rest) :
    ∃ found item,
      readPair element (writePath path key ++ (assignment ++ (value.print ++ rest))) =
        some ((found, item), rest) ∧ found.Names path key ∧ value.Denotes item := by
  have hends : EndsKey (assignment ++ (value.print ++ rest)) := by
    rintro _ ⟨⟩
    rfl
  have hblank : skipSpaces (assignment ++ (value.print ++ rest)) =
      '=' :: ' ' :: (value.print ++ rest) := rfl
  obtain ⟨found, hpath, names⟩ := readPath_writePath short key hends (by rw [hblank]; simp)
  obtain ⟨item, hitem, hdenotes⟩ := reads rest ends
  have hvalue : skipSpaces (' ' :: (value.print ++ rest)) = value.print ++ rest :=
    value.skipSpaces_print rest
  refine ⟨found, item, ?_, names, hdenotes⟩
  unfold readPair
  rw [hpath, hblank]
  simp [expect, hvalue, hitem]

/-! ## Tables between braces -/

/-- Pairs that are read have the keys and values that are written, with nothing before a key. -/
inductive Given : List (String × Written) → List (Path × Item) → Prop
  | nil : Given [] []
  | cons (key : Key) {value : Written} {item : Item} {written : List (String × Written)}
      {pairs : List (Path × Item)} (first : value.Denotes item) (rest : Given written pairs) :
      Given ((key.name, value) :: written) ((⟨[], key⟩, item) :: pairs)

/-- All blanks are skipped at once. -/
theorem skipSpaces_skipSpaces (cs : List Char) : skipSpaces (skipSpaces cs) = skipSpaces cs := by
  induction cs with
  | nil => rfl
  | cons c cs ih =>
    by_cases blank : isSpace c = true
    · simpa [skipSpaces, blank] using ih
    · simp [skipSpaces, blank]

/-- Blanks in front of a pair make no difference. -/
theorem readPair_skipSpaces (element : ItemReader) (cs : List Char) :
    readPair element (skipSpaces cs) = readPair element cs := by
  have hkeys : ∀ count, readKeys count (skipSpaces cs) = readKeys count cs := by
    intro count
    cases count with
    | zero => rfl
    | succ count => rw [readKeys, readKeys, skipSpaces_skipSpaces]
  unfold readPair readPath
  rw [hkeys]

section Pairs

variable {element : ItemReader} {cs left rest : List Char} {pair : Path × Item}

/-- An inline table may be closed after a pair. -/
theorem readPairs_last (hpair : readPair element cs = some (pair, left))
    (hleft : skipSpaces left = '\x7d' :: rest) : readPairs element cs = some ([pair], rest) := by
  unfold readPairs
  rw [hpair]
  simp only [hleft]

/-- After a pair and a comma more pairs are read. -/
theorem readPairs_more (hpair : readPair element cs = some (pair, left))
    (hleft : skipSpaces left = ',' :: rest) (shorter : rest.length < cs.length)
    {pairs : List (Path × Item)} {last : List Char}
    (hrest : readPairs element rest = some (pairs, last)) :
    readPairs element cs = some (pair :: pairs, last) := by
  unfold readPairs
  rw [hpair]
  simp only [hleft, if_pos shorter, hrest, Option.map_some]

end Pairs

/-- No blank is in front of pairs that are written. -/
theorem skipSpaces_printPairs (pair : String × Written) (pairs : List (String × Written))
    (rest : List Char) :
    skipSpaces (printPairs (pair :: pairs) ++ rest) = printPairs (pair :: pairs) ++ rest := by
  rw [printPairs]
  simp only [List.append_assoc]
  exact skipSpaces_writeKey _ _

/-- The pairs of an inline table that are written are read back, if each of their items is. -/
theorem readPairs_print {element : ItemReader} {written : List (String × Written)}
    (some_pair : written ≠ []) (each : ∀ pair ∈ written, ReadsBack element pair.2)
    (rest : List Char) :
    ∀ cs, skipSpaces cs = printPairs written ++ '\x7d' :: rest →
      (printPairs written ++ '\x7d' :: rest).length ≤ cs.length →
      ∃ pairs, readPairs element cs = some (pairs, rest) ∧ Given written pairs := by
  induction written with
  | nil => exact absurd rfl some_pair
  | cons pair written ih =>
    obtain ⟨name, value⟩ := pair
    intro cs hspaces hlength
    have hvalue := each (name, value) List.mem_cons_self
    have noPath : ([] : List String).length < maxDepth - 1 := by decide
    have read : ∀ left : List Char, EndsValue left →
        skipSpaces cs = writePath [] name ++ (assignment ++ (value.print ++ left)) →
        ∃ key item, key.name = name ∧ value.Denotes item ∧
          readPair element cs = some ((⟨[], key⟩, item), left) := by
      intro left ends hcs
      obtain ⟨⟨before, key⟩, item, hpair, ⟨hbefore, hname⟩, hdenotes⟩ :=
        readPair_print hvalue noPath name ends
      obtain rfl : before = [] := List.map_eq_nil_iff.mp hbefore
      rw [← hcs, readPair_skipSpaces] at hpair
      exact ⟨key, item, hname, hdenotes, hpair⟩
    cases written with
    | nil =>
      obtain ⟨key, item, rfl, hdenotes, hpair⟩ := read ('\x7d' :: rest)
        (.cons (by decide) _) (by simpa [printPairs, separator, writePath] using hspaces)
      exact ⟨[(⟨[], key⟩, item)], readPairs_last hpair rfl, .cons key hdenotes .nil⟩
    | cons second written =>
      have hmore := ih (List.cons_ne_nil _ _) fun other member =>
        each other (List.mem_cons_of_mem _ member)
      have hstart := skipSpaces_printPairs second written ('\x7d' :: rest)
      rw [printPairs] at hspaces hlength
      simp only [List.append_assoc] at hspaces hlength
      generalize printPairs (second :: written) ++ '\x7d' :: rest = remaining at *
      obtain ⟨key, item, rfl, hdenotes, hpair⟩ := read (',' :: ' ' :: remaining)
        (.cons (by decide) _) (by simpa [separator, writePath] using hspaces)
      have hblank : skipSpaces (' ' :: remaining) = remaining := hstart
      obtain ⟨pairs, hpairs, hall⟩ := hmore (' ' :: remaining) hblank (Nat.le_succ _)
      have shorter : (' ' :: remaining).length < cs.length := by
        simp [separator] at hlength ⊢
        omega
      exact ⟨(⟨[], key⟩, item) :: pairs, readPairs_more hpair rfl shorter hpairs,
        .cons key hdenotes hall⟩

/-- What is written between the braces of an inline table is read back. -/
theorem readInline_print {element : ItemReader} {written : List (String × Written)}
    (each : ∀ pair ∈ written, ReadsBack element pair.2) (rest : List Char) :
    ∃ pairs, readInline element (printPairs written ++ '\x7d' :: rest) = some (pairs, rest) ∧
      Given written pairs := by
  cases written with
  | nil => exact ⟨[], rfl, .nil⟩
  | cons pair written =>
    obtain ⟨name, value⟩ := pair
    have hstart := skipSpaces_printPairs (name, value) written ('\x7d' :: rest)
    obtain ⟨pairs, hpairs, hall⟩ := readPairs_print (List.cons_ne_nil _ _) each rest _ hstart
      (Nat.le_refl _)
    refine ⟨pairs, ?_, hall⟩
    unfold readInline
    rw [hstart]
    split
    · next same =>
      obtain ⟨c, later, hcons, starts⟩ := writeKey_cons name
      have hbrace : c ≠ '\x7d' := startsKey_ne starts (by decide)
      simp only [printPairs, hcons, List.cons_append, List.cons.injEq] at same
      exact absurd same.1 hbrace
    · exact hpairs

/-- Adds an entry to a table that is not dotted. -/
theorem assign_nil (made : TableForm) {table : Table} (notDotted : table.form.isDotted = false)
    {key : Key} (free : table.entries.find? key.name = none) (item : Item) :
    Table.assign made [] key item table =
      some { table with entries := table.entries.append key item } := by
  simp [Table.assign, Table.within, notDotted, Entries.insert, free]

/-- The pairs of a table between braces come to its entries. -/
theorem foldlM_given {written : List (String × Written)} {pairs : List (Path × Item)}
    (given : Given written pairs) (names : (written.map Prod.fst).Nodup) :
    ∀ {entries : Entries}, (∀ name ∈ written.map Prod.fst, entries.find? name = none) →
      ∃ more, Lists written more ∧
        pairs.foldlM
          (fun table pair => Table.assign .inlineDotted pair.1.before pair.1.last pair.2 table)
          ⟨.inline, entries, none⟩ = some ⟨.inline, entries ++ more, none⟩ := by
  induction written generalizing pairs with
  | nil =>
    intro entries _
    cases given
    exact ⟨[], .nil, by rw [List.append_nil]; rfl⟩
  | cons pair written ih =>
    intro entries free
    cases given with
    | cons key hdenotes hrest =>
      rename_i value item pairs
      rw [List.map_cons, List.nodup_cons] at names
      have hnow : entries.find? key.name = none := free _ List.mem_cons_self
      have hlater : ∀ name ∈ written.map Prod.fst, (entries.append key item).find? name = none := by
        intro name member
        have hother : name ≠ key.name := by
          rintro rfl
          exact names.1 member
        have hold := free name (List.mem_cons_of_mem _ member)
        rw [Entries.find?_eq_none_iff] at hold ⊢
        intro entry hentry
        rcases List.mem_append.mp hentry with hentry | hentry
        · exact hold entry hentry
        · rw [List.mem_singleton.mp hentry]
          exact Ne.symm hother
      obtain ⟨more, hlists, hfold⟩ := ih hrest names.2 hlater
      refine ⟨(key, item) :: more, .cons key hdenotes hlists, ?_⟩
      rw [List.foldlM_cons, assign_nil .inlineDotted rfl hnow]
      have happend : entries.append key item ++ more = entries ++ (key, item) :: more :=
        List.append_assoc ..
      rw [← happend]
      exact hfold

/-- Pairs of distinct names make the entries that they list. -/
theorem inlineEntries?_of_given {written : List (String × Written)} {pairs : List (Path × Item)}
    (given : Given written pairs) (names : (written.map Prod.fst).Nodup) :
    ∃ entries, inlineEntries? pairs = some entries ∧ Lists written entries := by
  have free : ∀ name ∈ written.map Prod.fst, Entries.find? name [] = none := fun _ _ => rfl
  obtain ⟨entries, hlists, hfold⟩ := foldlM_given given names free
  refine ⟨entries, ?_, hlists⟩
  rw [inlineEntries?, hfold]
  rfl

/-- A value that is nested so deep is read back. -/
theorem readItem_print {depth : Nat} {written : Written} (fits : written.Fits depth) :
    ReadsBack (readItem depth) written := by
  induction fits with
  | text depth value =>
    intro rest ends
    obtain ⟨extent, htext⟩ := readScalar_text value ends
    refine ⟨_, ?_, .text value extent⟩
    rw [Written.print, ← htext]
    exact readItem_of_scalar depth (by decide) (by decide)
  | number depth bounded =>
    rename_i value
    intro rest ends
    obtain ⟨extent, hnumber⟩ := readScalar_decimal bounded ends
    obtain ⟨d, ds, hcons, hdigit, -⟩ := decimal_cons value
    refine ⟨_, ?_, .number value extent⟩
    rw [Written.print, ← hnumber, hcons, List.cons_append]
    apply readItem_of_scalar depth
    · rintro rfl
      cases hdigit
    · rintro rfl
      cases hdigit
  | boolean depth value =>
    intro rest ends
    obtain ⟨extent, hboolean⟩ := readScalar_boolean value rest
    refine ⟨_, ?_, .boolean value extent⟩
    rw [Written.print, ← hboolean]
    cases value
    · exact readItem_of_scalar depth (by decide) (by decide)
    · exact readItem_of_scalar depth (by decide) (by decide)
  | array each ih =>
    intro rest ends
    rename_i depth items
    have hstart : skipGaps false (printItems items ++ ']' :: rest) =
        printItems items ++ ']' :: rest := by
      cases items with
      | nil => rfl
      | cons value items => exact skipGaps_printItems value items _
    obtain ⟨found, hfound, hall⟩ := readItems_print ih rest _ hstart (Nat.le_refl _)
    refine ⟨_, ?_, .array (extentOf ('[' :: (printItems items ++ ']' :: rest)) rest) hall⟩
    rw [Written.print, List.cons_append, List.append_assoc, List.singleton_append]
    simp only [readItem, hfound, Option.map_some]
  | table names each ih =>
    intro rest ends
    rename_i depth pairs
    obtain ⟨given, hgiven, hall⟩ := readInline_print ih rest
    obtain ⟨entries, hentries, hlists⟩ := inlineEntries?_of_given hall names
    refine ⟨_, ?_, .table .inline
      (some (extentOf ('\x7b' :: (printPairs pairs ++ '\x7d' :: rest)) rest)) hlists⟩
    rw [Written.print, List.cons_append, List.append_assoc, List.singleton_append]
    simp only [readItem, hgiven, Option.bind_some, hentries, Option.map_some]

/-! ## Lines -/

/-- A line that can be read: its path is short enough, and its value is nested less deep than values
may be. -/
def Line.Fits : Line → Prop
  | .assign path _ value => path.length < maxDepth - 1 ∧ value.Fits (maxDepth - 1)
  | .header path _ => path.length < maxDepth - 1

/-- A statement is what a line writes. -/
inductive Line.Denotes : Line → Statement → Prop
  | assign {path : List String} {key : String} {value : Written} {found : Path} {item : Item}
      (names : found.Names path key) (denotes : value.Denotes item) :
      Denotes (.assign path key value) (.assign found item)
  | header {path : List String} {key : String} {found : Path} (names : found.Names path key)
      (extent : Extent) : Denotes (.header path key) (.header found extent)

/-- A path that is written begins with a quote or a character of a bare key. -/
theorem writePath_cons (path : List String) (key : String) (rest : List Char) :
    ∃ c later, writePath path key ++ rest = c :: later ∧ (c = '"' ∨ isBareChar c = true) := by
  cases path with
  | nil =>
    obtain ⟨c, later, hcons, starts⟩ := writeKey_cons key
    exact ⟨c, later ++ rest, by simp [writePath, hcons], starts⟩
  | cons name path =>
    obtain ⟨c, later, hcons, starts⟩ := writeKey_cons name
    exact ⟨c, later ++ '.' :: (writePath path key ++ rest), by simp [writePath, hcons], starts⟩

/-- A header that is written is read back. -/
theorem readStatement_header {path : List String} (short : path.length < maxDepth - 1)
    (key : String) (rest : List Char) :
    ∃ found extent,
      readStatement ('[' :: (writePath path key ++ (']' :: '\n' :: rest))) =
        some (.header found extent, rest) ∧ found.Names path key := by
  have hends : EndsKey (']' :: '\n' :: rest) := by
    rintro _ ⟨⟩
    rfl
  have hspaces : skipSpaces (']' :: '\n' :: rest) = ']' :: '\n' :: rest := rfl
  obtain ⟨found, hpath, names⟩ := readPath_writePath short key hends (by rw [hspaces]; simp)
  obtain ⟨c, later, hcons, starts⟩ := writePath_cons path key (']' :: '\n' :: rest)
  have hbracket : c ≠ '[' := startsKey_ne starts (by decide)
  refine ⟨found, extentOf ('[' :: (writePath path key ++ (']' :: '\n' :: rest))) ('\n' :: rest), ?_,
    names⟩
  have hheader : readHeader ('[' :: (writePath path key ++ (']' :: '\n' :: rest))) =
      some (.header found
        (extentOf ('[' :: (writePath path key ++ (']' :: '\n' :: rest))) ('\n' :: rest)),
        '\n' :: rest) := by
    rw [hcons] at hpath ⊢
    unfold readHeader
    split
    · next same =>
      cases same
      exact absurd rfl hbracket
    · next same =>
      cases same
      rw [hspaces] at hpath
      simp [hpath, expect]
    · next other => exact absurd rfl (other _)
  unfold readStatement
  simp only [hheader]
  rfl

/-- An assignment that is written is read back. -/
theorem readStatement_assign {path : List String} (short : path.length < maxDepth - 1)
    (key : String) {value : Written} (fits : value.Fits (maxDepth - 1)) (rest : List Char) :
    ∃ found item,
      readStatement (writePath path key ++ (assignment ++ (value.print ++ '\n' :: rest))) =
        some (.assign found item, rest) ∧ found.Names path key ∧ value.Denotes item := by
  have ends : EndsValue ('\n' :: rest) := .cons (by decide) _
  obtain ⟨found, item, hpair, names, denotes⟩ :=
    readPair_print (readItem_print fits) short key ends
  refine ⟨found, item, ?_, names, denotes⟩
  obtain ⟨c, later, hcons, starts⟩ := writePath_cons path key
    (assignment ++ (value.print ++ '\n' :: rest))
  have hbracket : c ≠ '[' := startsKey_ne starts (by decide)
  have hvalue : readPair readValue (c :: later) = some ((found, item), '\n' :: rest) := by
    rw [← hcons]
    exact hpair
  rw [hcons]
  unfold readStatement
  split
  · next same =>
    cases same
    exact absurd rfl hbracket
  · rw [hvalue]
    rfl

/-- A line that begins with a statement is read as that statement. -/
theorem readLine_of_readStatement {c : Char} {cs rest : List Char} {statement : Statement}
    (plain : isSpace c = false ∧ c ≠ '#' ∧ c ≠ '\n' ∧ c ≠ '\r')
    (h : readStatement (c :: cs) = some (statement, rest)) :
    readLine (c :: cs) = some (some statement, rest) := by
  obtain ⟨noBlank, noMark, noLine, noReturn⟩ := plain
  have hline : newline? (c :: cs) = none := by
    unfold newline?
    split
    · next same => cases same; exact absurd rfl noLine
    · next same => cases same; exact absurd rfl noReturn
    · rfl
  unfold readLine
  rw [skipSpaces_of_head noBlank]
  split
  · next same => cases same
  · next same => cases same; exact absurd rfl noMark
  · rw [hline, h]
    rfl

/-- A line that is written is read back. -/
theorem readLine_print {line : Line} (fits : line.Fits) (rest : List Char) :
    ∃ statement, readLine (line.print ++ rest) = some (some statement, rest) ∧
      line.Denotes statement := by
  cases line with
  | assign path key value =>
    obtain ⟨found, item, hread, names, denotes⟩ := readStatement_assign fits.1 key fits.2 rest
    obtain ⟨c, later, hcons, starts⟩ := writePath_cons path key
      (assignment ++ (value.print ++ '\n' :: rest))
    have hblank : c ≠ ' ' := startsKey_ne starts (by decide)
    have htab : c ≠ '\t' := startsKey_ne starts (by decide)
    have hline : (Line.assign path key value).print ++ rest = c :: later := by
      rw [← hcons]
      simp [Line.print]
    refine ⟨_, ?_, .assign names denotes⟩
    rw [hcons] at hread
    rw [hline]
    apply readLine_of_readStatement _ hread
    refine ⟨by simp [isSpace, hblank, htab], ?_, ?_, ?_⟩
    · exact startsKey_ne starts (by decide)
    · exact startsKey_ne starts (by decide)
    · exact startsKey_ne starts (by decide)
  | header path key =>
    obtain ⟨found, extent, hread, names⟩ := readStatement_header fits key rest
    refine ⟨_, ?_, .header names extent⟩
    have hline : (Line.header path key).print ++ rest =
        '[' :: (writePath path key ++ (']' :: '\n' :: rest)) := by
      simp [Line.print]
    rw [hline]
    exact readLine_of_readStatement (by decide) hread

/-- Every line that is written has characters. -/
theorem Line.length_print (line : Line) : 0 < line.print.length := by
  cases line <;> simp [Line.print]

/-- Written lines are read back as the statements that they write, in their order. -/
theorem readAll_print {lines : List Line} (fits : ∀ line ∈ lines, line.Fits) :
    ∃ statements, Statement.readAll (lines.flatMap Line.print) = some statements ∧
      List.Forall₂ Line.Denotes lines statements := by
  induction lines with
  | nil =>
    refine ⟨[], ?_, .nil⟩
    rw [Statement.readAll]
    rfl
  | cons line lines ih =>
    obtain ⟨statements, hrest, hall⟩ :=
      ih fun other member => fits other (List.mem_cons_of_mem _ member)
    obtain ⟨statement, hline, hdenotes⟩ := readLine_print (fits line List.mem_cons_self)
      (lines.flatMap Line.print)
    have hlength := line.length_print
    refine ⟨statement :: statements, ?_, .cons hdenotes hall⟩
    rw [List.flatMap_cons, Statement.readAll, if_neg, hline]
    · have shorter : (lines.flatMap Line.print).length <
          (line.print ++ lines.flatMap Line.print).length := by
        rw [List.length_append]
        omega
      simp only [if_pos shorter, hrest]
      rfl
    · rw [List.isEmpty_iff_length_eq_zero, List.length_append]
      omega

end PongFixture.Toml

import PongFixture.Proofs.Toml.Rebuilding

/-!
# The readers of a document follow a replacement

Every reader of a document is written as a combination of simpler ones, and follows the replacement of a
text since they do. Keys, blanks and numbers follow it because they do not depend on what is behind a
quote. The text itself is met where an item without parts is read.
-/

set_option autoImplicit false

namespace PongFixture.Toml

/-! ## What editing means -/

/-- Keys. -/
def Swap.key (swap : Swap) : Marking Key :=
  ⟨swap.editKey, fun _ => 0, fun key => swap.Beside key.extent⟩

/-- Paths. -/
def Swap.path (swap : Swap) : Marking Path :=
  ⟨Path.edit swap, fun _ => 0, Path.Placed swap⟩

/-- Items that have no headers. -/
def Swap.item (swap : Swap) : Marking Item :=
  ⟨Item.edit swap, Item.count swap, Item.Placed swap fun _ => False⟩

/-- Statements. -/
def Swap.statement (swap : Swap) : Marking Statement :=
  ⟨Statement.edit swap, Statement.count swap, Statement.Placed swap⟩

/-! ## The next character -/

/-- The first reader goes on where the character is next. -/
theorem ifNext_self {α : Type} (c : Char) (first second : Reader α) (cs : List Char) :
    Reader.ifNext (· == c) first second (c :: cs) = first (c :: cs) := by
  simp [Reader.ifNext]

/-- The second reader goes on where the character is not next. -/
theorem ifNext_other {α : Type} {c : Char} {cs : List Char} (h : ∀ rest, cs = c :: rest → False)
    (first second : Reader α) : Reader.ifNext (· == c) first second cs = second cs := by
  cases cs with
  | nil => rfl
  | cons d cs =>
    have hd : d ≠ c := fun hd => h cs (by rw [hd])
    simp [Reader.ifNext, hd]

/-- A character is read where it is next. -/
theorem expect_cons_self (c : Char) (cs : List Char) : expect c (c :: cs) = some cs :=
  expect_eq_some_iff.mpr rfl

/-- A character is not read where it is not next. -/
theorem expect_other {c : Char} {cs : List Char} (h : ∀ rest, cs = c :: rest → False) :
    expect c cs = none := by
  rw [Option.eq_none_iff_forall_ne_some]
  exact fun rest hrest => h rest (expect_eq_some_iff.mp hrest)

/-- A character that nothing begins with is not the first one. -/
theorem head?_ne_some {c : Char} {cs : List Char} (h : ∀ rest, cs = c :: rest → False) :
    cs.head? ≠ some c := by
  intro hhead
  obtain ⟨rest, hrest⟩ := List.head?_eq_some_iff.mp hhead
  exact h rest hrest

/-- What is left after a character is shorter. -/
theorem length_tail_lt {c : Char} {cs : List Char} (h : cs.head? = some c) :
    cs.tail.length < cs.length := by
  obtain ⟨rest, rfl⟩ := List.head?_eq_some_iff.mp h
  exact Nat.lt_succ_self _

/-! ## Keys -/

/-- Skips spaces and tabs. -/
def spaces : Reader Unit := fun cs => some ((), skipSpaces cs)

/-- Skips blanks, line ends and comments. -/
def gaps : Reader Unit := fun cs => some ((), skipGaps false cs)

/-- Reads a key without quotes. -/
def bareKey : Reader (List Char) := fun cs =>
  if (cs.takeWhile isBareChar).isEmpty then none
  else some (cs.takeWhile isBareChar, cs.dropWhile isBareChar)

/-- Whether a character is a quote. -/
def isQuoteChar (c : Char) : Bool := c == '"' || c == '\''

/-- What may come after a key of a path: a point and more keys. -/
def moreKeys (count : Nat) : Reader (Option Path) :=
  Reader.ifNext (· == '.') (((bare (expect '.')).andThen (readKeys count)).mapped fun x => some x.2)
    fun cs => some (none, cs)

/-- A path of a key and what comes after it. -/
def Path.from (key : Key) : Option Path → Path
  | none => ⟨[], key⟩
  | some path => ⟨key :: path.before, path.last⟩

section Keys

variable {swap : Swap}

/-- Skipping spaces and tabs follows the replacement. -/
theorem spaces_follows : Follows swap (.plain Unit) spaces :=
  (skipSpaces_stops swap.isQuote).toNearby.follows

/-- Skipping blanks, line ends and comments follows the replacement. -/
theorem gaps_follows : Follows swap (.plain Unit) gaps :=
  (skipGaps_nearby swap.isQuote false).follows

/-- Reading a character that is no quote follows the replacement. -/
theorem expect_follows {c : Char} (hdouble : c ≠ '"') (hsingle : c ≠ '\'') :
    Follows swap (.plain Unit) (bare (expect c)) :=
  (expect_stops (swap.isQuote.ne hdouble hsingle)).toNearby.follows

/-- A quote stops the reader of keys without quotes. -/
theorem bareKey_stops {quote : Char} (h : IsQuote quote) : Stops quote bareKey := by
  have hquote : isBareChar quote = false := by rcases h with rfl | rfl <;> rfl
  constructor
  · intro cs rest x hread
    unfold bareKey at hread
    split at hread
    · cases hread
    · cases hread
      exact List.dropWhile_suffix _
  · intro ahead
    have hsplit : ∀ behind,
        (ahead ++ quote :: behind).takeWhile isBareChar = ahead.takeWhile isBareChar ∧
        (ahead ++ quote :: behind).dropWhile isBareChar =
          ahead.dropWhile isBareChar ++ quote :: behind := by
      intro behind
      induction ahead with
      | nil => simp [hquote]
      | cons c ahead ih => by_cases hc : isBareChar c = true <;> simp [hc, ih]
    refine ⟨bareKey ahead, fun behind => ?_⟩
    unfold bareKey
    rw [(hsplit behind).1, (hsplit behind).2]
    split <;> rfl

/-- A key is a text on one line or a key without quotes, with its stretch. -/
theorem readKey_eq (cs : List Char) :
    readKey cs = ((Reader.ifNext isQuoteChar readLineText bareKey).spanned.mapped fun x =>
      Key.mk (String.ofList x.1) x.2) cs := by
  unfold readKey Reader.mapped Reader.spanned Reader.ifNext
  split
  · simp [isQuoteChar, Function.comp_def]
  · simp [isQuoteChar, Function.comp_def]
  · next hdouble hsingle =>
    have hplain : cs.head?.any isQuoteChar = false := by
      cases cs with
      | nil => rfl
      | cons c cs =>
        have hc : c ≠ '"' := fun hc => hdouble cs (by rw [hc])
        have hd : c ≠ '\'' := fun hd => hsingle cs (by rw [hd])
        simp [isQuoteChar, hc, hd]
    simp only [hplain, Bool.false_eq_true, if_false, bareKey]
    split <;> rfl

/-- Reading a key follows the replacement. -/
theorem readKey_follows : Follows swap swap.key readKey := by
  have hname := (readLineText_nearby swap.quote).follows.ifNext isQuoteChar
    (bareKey_stops swap.isQuote).toNearby.follows
  refine (hname.spanned.mapped ?_ ?_ ?_).congr readKey_eq
  · intro x
    rfl
  · intro x
    rfl
  · intro x hx
    exact .of_plain hx

/-- A path is a key, and perhaps a point and more keys. -/
theorem readKeys_succ (count : Nat) (cs : List Char) :
    readKeys (count + 1) cs =
      (((spaces.andThen readKey).andThen (spaces.andThen (moreKeys count))).mapped fun x =>
        Path.from x.1.2 x.2.2) cs := by
  cases hkey : readKey (skipSpaces cs) with
  | none => simp [readKeys, Reader.mapped, Reader.andThen, spaces, hkey]
  | some r =>
    obtain ⟨key, rest⟩ := r
    cases hrest : skipSpaces rest with
    | nil =>
      simp [readKeys, Reader.mapped, Reader.andThen, spaces, moreKeys, Reader.ifNext, hkey, hrest,
        Path.from]
    | cons c rest =>
      by_cases hc : c = '.'
      · simp [readKeys, Reader.mapped, Reader.andThen, spaces, moreKeys, Reader.ifNext, hkey, hrest,
          hc, bare, expect, Path.from, Function.comp_def]
      · simp [readKeys, Reader.mapped, Reader.andThen, spaces, moreKeys, Reader.ifNext, hkey, hrest,
          hc, Path.from]

/-- Reading the keys of a path follows the replacement. -/
theorem readKeys_follows (count : Nat) : Follows swap swap.path (readKeys count) := by
  induction count with
  | zero => exact .refuse
  | succ count ih =>
    have hpoint : Follows swap (.plain Unit) (bare (expect '.')) :=
      expect_follows (by decide) (by decide)
    have hlater : Follows swap (.option swap.path)
        (((bare (expect '.')).andThen (readKeys count)).mapped fun x => some x.2) := by
      refine (hpoint.andThen ih).mapped ?_ ?_ ?_
      · rintro ⟨_, path⟩
        rfl
      · rintro ⟨_, path⟩
        rfl
      · rintro ⟨_, path⟩ ⟨-, hpath⟩ _ ⟨⟩
        exact hpath
    have hmore : Follows swap (.option swap.path) (moreKeys count) :=
      hlater.ifNext _ (.pure rfl rfl fun _ h => nomatch h)
    refine ((((spaces_follows.andThen readKey_follows).andThen
      (spaces_follows.andThen hmore)).mapped ?_ ?_ ?_)).congr (readKeys_succ count)
    · rintro ⟨⟨_, key⟩, _, _ | path⟩ <;> rfl
    · rintro ⟨⟨_, key⟩, _, _ | path⟩ <;> rfl
    · rintro ⟨⟨_, key⟩, _, _ | path⟩ ⟨⟨-, hkey⟩, -, hpath⟩
      · exact ⟨fun _ h => (nomatch h), hkey⟩
      · obtain ⟨hbefore, hlast⟩ := hpath path rfl
        exact ⟨List.forall_mem_cons.mpr ⟨hkey, hbefore⟩, hlast⟩

/-- Reading a path follows the replacement. -/
theorem readPath_follows : Follows swap swap.path readPath := readKeys_follows _

end Keys

/-! ## Items without parts -/

/-- Reads a text as an item. -/
def quotedItem : Reader Item :=
  (Reader.spanned readText).mapped fun x => .text (String.ofList x.1) x.2

/-- Reads a word as a truth value. -/
def truth (word : String) (value : Bool) : Reader Item :=
  (bare (expectWord word.toList)).spanned.mapped fun x => .boolean value x.2

/-- Reads a moment, or else a number. -/
def momentOrNumber : Reader (Option Number) := fun cs =>
  match bare readMoment cs with
  | some r => some (none, r.2)
  | none => (readNumber cs).map fun r => (some r.1, r.2)

/-- The item of a number, or of a moment where there is none. -/
def Item.ofNumber? (extent : Extent) : Option Number → Item
  | some value => .number value extent
  | none => .moment extent

section Scalars

variable {swap : Swap}

/-- A text is read as an item with its stretch. -/
theorem quotedItem_eq_some_iff {cs rest : List Char} {item : Item} :
    quotedItem cs = some (item, rest) ↔
      ∃ text, readText cs = some (text, rest) ∧
        item = .text (String.ofList text) (extentOf cs rest) := by
  constructor
  · intro h
    obtain ⟨⟨text, extent⟩, hread, rfl⟩ := Reader.mapped_eq_some_iff.mp h
    obtain ⟨htext, hextent⟩ := Reader.spanned_eq_some_iff.mp hread
    exact ⟨text, htext, by rw [← hextent]⟩
  · rintro ⟨text, htext, rfl⟩
    simp [quotedItem, Reader.mapped, Reader.spanned, htext]

/-- The one reader that meets the text: it may begin there. -/
theorem quotedItem_follows : Follows swap swap.item quotedItem := by
  have hspanned := (readText_nearby swap.isQuote).follows.spanned
  have hspan : ∀ {cs rest text : List Char}, readText cs = some (text, rest) →
      Reader.spanned readText cs = some ((text, extentOf cs rest), rest) :=
    fun h => Reader.spanned_eq_some_iff.mpr ⟨h, rfl⟩
  have hlength := swap.length_after_lt_here
  constructor
  · intro cs rest x hread
    obtain ⟨text, htext, rfl⟩ := quotedItem_eq_some_iff.mp hread
    exact (readText_nearby swap.isQuote).suffix htext
  · intro cs rest x hread hshort
    obtain ⟨text, htext, rfl⟩ := quotedItem_eq_some_iff.mp hread
    have hstart : (extentOf cs rest).start ≠ swap.here.length := Nat.ne_of_lt hshort
    exact (Item.count_text ..).trans (if_neg hstart)
  · intro cs rest x hread hshort
    obtain ⟨text, htext, rfl⟩ := quotedItem_eq_some_iff.mp hread
    have hstart : (extentOf cs rest).start ≠ swap.here.length := by
      show cs.length ≠ _
      omega
    obtain ⟨hedit, hplaced⟩ := hspanned.still (hspan htext) hshort
    have hextent := (Prod.mk.inj hedit).2
    obtain ⟨clear, apart⟩ := Swap.Beside.of_plain hplaced
    refine ⟨?_, .text clear fun hspans => absurd hspans apart⟩
    refine (Item.edit_text ..).trans ?_
    rw [if_neg hstart, hextent]
  · intro ahead rest x hahead hread
    obtain ⟨text, htext, rfl⟩ := quotedItem_eq_some_iff.mp hread
    cases ahead with
    | nil =>
      have hsame : some (swap.oldText, swap.after) = some (text, rest) := swap.oldRead.symm.trans htext
      cases hsame
      refine .past (quotedItem_eq_some_iff.mpr ⟨_, swap.newRead, ?_⟩) (Nat.le_refl _)
        ((Item.count_text ..).trans (if_pos rfl))
        (.text ⟨swap.outside_ahead hahead, .inr (Nat.le_refl _)⟩ fun _ => rfl)
      have hstart : (extentOf ([] ++ swap.here) swap.after).start = swap.here.length := rfl
      refine (Item.edit_text ..).trans ?_
      rw [if_pos hstart]
      simp only [Swap.moveExtent, extentOf, Swap.move_ahead, swap.move_past (Nat.le_refl _)]
    | cons c ahead =>
      have hstart : (extentOf (c :: ahead ++ swap.here) rest).start ≠ swap.here.length := by
        simp only [extentOf, List.length_append, List.length_cons]
        omega
      have hcount : (Item.text (String.ofList text) (extentOf (c :: ahead ++ swap.here) rest)).count
          swap = 0 := (Item.count_text ..).trans (if_neg hstart)
      cases hspanned.course hahead (hspan htext) with
      | @ahead left same hnone hplaced =>
        obtain ⟨hother, hextent⟩ := Reader.spanned_eq_some_iff.mp same
        obtain ⟨clear, apart⟩ := Swap.Beside.of_plain hplaced
        refine .ahead (quotedItem_eq_some_iff.mpr ⟨text, hother, ?_⟩) hcount
          (.text clear fun hspans => absurd hspans apart)
        refine (Item.edit_text ..).trans ?_
        rw [if_neg hstart, ← hextent]
        rfl
      | past same hshort hone hplaced => cases hone
      | astray hshort hnone => exact .astray hshort hcount

/-- Reading a truth value follows the replacement. -/
theorem truth_follows {word : String} (hdouble : '"' ∉ word.toList) (hsingle : '\'' ∉ word.toList)
    (value : Bool) : Follows swap swap.item (truth word value) := by
  have hword := expectWord_stops (swap.isQuote.ne_of_mem hdouble hsingle)
  refine hword.toNearby.follows.spanned.mapped ?_ ?_ ?_
  · rintro ⟨_, extent⟩
    exact (Item.edit_boolean value extent).symm
  · rintro ⟨_, extent⟩
    exact Item.count_boolean value extent
  · rintro ⟨_, extent⟩ hplaced
    exact .boolean (.of_plain hplaced)

/-- A quote stops the reader of moments and numbers. -/
theorem momentOrNumber_stops {quote : Char} (h : IsQuote quote) : Stops quote momentOrNumber :=
  ((readMoment_stops h).ifReads (fun _ => .pure none) ((readNumber_stops h).map some)).congr
    fun cs => by unfold momentOrNumber; cases bare readMoment cs <;> rfl

/-- Reading a moment or a number as an item follows the replacement. -/
theorem momentOrNumber_follows :
    Follows swap swap.item (momentOrNumber.spanned.mapped fun x => Item.ofNumber? x.2 x.1) := by
  refine (momentOrNumber_stops swap.isQuote).toNearby.follows.spanned.mapped ?_ ?_ ?_
  · rintro ⟨_ | value, extent⟩
    · exact (Item.edit_moment extent).symm
    · exact (Item.edit_number value extent).symm
  · rintro ⟨_ | value, extent⟩
    · exact Item.count_moment extent
    · exact Item.count_number value extent
  · rintro ⟨_ | value, extent⟩ hplaced
    · exact .moment (.of_plain hplaced)
    · exact .number (.of_plain hplaced)

/-- A scalar is told by its first character. -/
theorem readScalar_eq (cs : List Char) :
    readScalar cs = Reader.ifNext isQuoteChar quotedItem
      (Reader.ifNext (· == 't') (truth "true" true) (Reader.ifNext (· == 'f') (truth "false" false)
        (momentOrNumber.spanned.mapped fun x => Item.ofNumber? x.2 x.1))) cs := by
  cases cs with
  | nil => rfl
  | cons c cs =>
    unfold readScalar Reader.ifNext
    simp only [List.head?_cons, Option.any_some, isQuoteChar, Bool.or_eq_true, beq_iff_eq]
    split
    · simp [quotedItem, Reader.mapped, Reader.spanned, Function.comp_def]
    · split
      · simp [truth, Reader.mapped, Reader.spanned, bare, Function.comp_def]
      · split
        · simp [truth, Reader.mapped, Reader.spanned, bare, Function.comp_def]
        · cases hmoment : readMoment (c :: cs) with
          | some rest =>
            simp [momentOrNumber, Reader.mapped, Reader.spanned, bare, hmoment, Item.ofNumber?]
          | none =>
            simp [momentOrNumber, Reader.mapped, Reader.spanned, bare, hmoment, Item.ofNumber?,
              Function.comp_def]

/-- Reading a scalar follows the replacement. -/
theorem readScalar_follows : Follows swap swap.item readScalar :=
  (quotedItem_follows.ifNext _ ((truth_follows (by decide) (by decide) true).ifNext _
    ((truth_follows (by decide) (by decide) false).ifNext _ momentOrNumber_follows))).congr
      readScalar_eq

end Scalars

/-! ## Items with parts -/

/-- Reads what closes a list of values. -/
def closing {α : Type} (close : Char) : Reader (List α) :=
  (bare (expect close)).mapped fun _ => []

/-- Reads a list of values that may be closed at once. -/
def opening {α : Type} (skip : Reader Unit) (close : Char) (reader : Reader (List α)) :
    Reader (List α) :=
  (skip.andThen (Reader.ifNext (· == close) (closing close) reader)).mapped Prod.snd

/-- Reads a value, and more after a comma unless the list is closed. -/
def series {α : Type} (skip : Reader Unit) (close : Char) (element : Reader α)
    (more : Reader (List α)) : Reader (List α) :=
  (element.andThen (skip.andThen (Reader.ifNext (· == close) (closing close)
    (((bare (expect ',')).andThen more).mapped Prod.snd)))).mapped fun x => x.1 :: x.2.2

/-- Reads the items of an array of bounded length. -/
def itemsUpTo (element : ItemReader) : Nat → Reader (List Item)
  | 0 => fun _ => none
  | n + 1 => opening gaps ']' (series gaps ']' element (itemsUpTo element n))

/-- Reads the pairs of an inline table of bounded length. -/
def pairsUpTo (element : ItemReader) : Nat → Reader (List (Path × Item))
  | 0 => fun _ => none
  | n + 1 => series spaces '\x7d' (readPair element) (pairsUpTo element n)

section Parts

variable {swap : Swap} {α : Type} {marking : Marking α} {element : ItemReader}

/-- Reading what closes a list follows the replacement. -/
theorem closing_follows {close : Char} (hdouble : close ≠ '"') (hsingle : close ≠ '\'') :
    Follows swap marking.list (closing close) := by
  have hclose : Follows swap (.plain Unit) (bare (expect close)) := expect_follows hdouble hsingle
  refine hclose.mapped ?_ ?_ ?_
  · intro x
    rfl
  · intro x
    rfl
  · intro x _ y hy
    cases hy

/-- A list that may be closed at once follows the replacement if the reader of its values does. -/
theorem Follows.opening {skip : Reader Unit} {close : Char} {reader : Reader (List α)}
    (hskip : Follows swap (.plain Unit) skip) (hdouble : close ≠ '"') (hsingle : close ≠ '\'')
    (h : Follows swap marking.list reader) :
    Follows swap marking.list (Toml.opening skip close reader) :=
  hskip.behind ((closing_follows hdouble hsingle).ifNext _ h)

/-- A value and what comes after its comma follow the replacement if both readers do. -/
theorem Follows.series {skip : Reader Unit} {close : Char} {reader : Reader α}
    {more : Reader (List α)} (hskip : Follows swap (.plain Unit) skip) (hdouble : close ≠ '"')
    (hsingle : close ≠ '\'') (h : Follows swap marking reader)
    (hmore : Follows swap marking.list more) :
    Follows swap marking.list (Toml.series skip close reader more) := by
  have hcomma : Follows swap (.plain Unit) (bare (expect ',')) :=
    expect_follows (by decide) (by decide)
  have hlater : Follows swap marking.list (((bare (expect ',')).andThen more).mapped Prod.snd) :=
    hcomma.behind hmore
  refine (h.andThen (hskip.andThen ((closing_follows hdouble hsingle).ifNext _ hlater))).mapped
    ?_ ?_ ?_
  · intro x
    rfl
  · intro x
    simp [Marking.list, Marking.pair, Marking.plain]
  · rintro ⟨x, _, xs⟩ ⟨hx, _, hxs⟩
    exact List.forall_mem_cons.mpr ⟨hx, hxs⟩

/-- Reading so many items follows the replacement. -/
theorem itemsUpTo_follows (h : Follows swap swap.item element) (n : Nat) :
    Follows swap swap.item.list (itemsUpTo element n) := by
  induction n with
  | zero => exact .refuse
  | succ n ih =>
    exact .opening gaps_follows (by decide) (by decide)
      (.series gaps_follows (by decide) (by decide) h ih)

/-- What a list that may be closed at once comes to, by the character after the blanks. -/
theorem opening_eq (skip : List Char → List Char) (close : Char) (reader : Reader (List α))
    (cs : List Char) :
    Toml.opening (fun cs => some ((), skip cs)) close reader cs =
      if (skip cs).head? = some close then some ([], (skip cs).tail) else reader (skip cs) := by
  unfold Toml.opening Reader.mapped Reader.andThen Reader.ifNext
  cases hskip : skip cs with
  | nil => simp [hskip, Function.comp_def]
  | cons c rest =>
    by_cases hc : c = close
    · simp [hskip, hc, closing, Reader.mapped, bare, expect]
    · simp [hskip, hc, Function.comp_def]

/-- What a value and those after it come to, by the character after the value and blanks. -/
theorem series_eq (skip : List Char → List Char) (close : Char) (reader : Reader α)
    (more : Reader (List α)) (cs : List Char) :
    Toml.series (fun cs => some ((), skip cs)) close reader more cs =
      (reader cs).bind fun r =>
        if (skip r.2).head? = some close then some ([r.1], (skip r.2).tail)
        else if (skip r.2).head? = some ',' then
          (more (skip r.2).tail).map fun s => (r.1 :: s.1, s.2)
        else none := by
  unfold Toml.series Reader.mapped Reader.andThen Reader.ifNext
  cases reader cs with
  | none => rfl
  | some r =>
    cases hskip : skip r.2 with
    | nil => simp [hskip, bare, expect]
    | cons c rest =>
      by_cases hc : c = close
      · simp [hskip, hc, closing, Reader.mapped, bare, expect]
      · by_cases hcomma : c = ','
        · have hclose : ',' ≠ close := fun h => hc (hcomma.trans h)
          simp [hskip, hcomma, hclose, bare, expect, Function.comp_def]
        · simp [hskip, hc, hcomma, bare, expect]

/-- The items of an array are read one by one, each behind a gap, up to the bracket. -/
theorem readItems_eq (element : ItemReader) (cs : List Char) :
    readItems element cs =
      if (skipGaps false cs).head? = some ']' then some ([], (skipGaps false cs).tail)
      else (element (skipGaps false cs)).bind fun r =>
        if (skipGaps false r.2).head? = some ']' then some ([r.1], (skipGaps false r.2).tail)
        else if (skipGaps false r.2).head? = some ',' then
          if (skipGaps false r.2).tail.length < cs.length then
            (readItems element (skipGaps false r.2).tail).map fun s => (r.1 :: s.1, s.2)
          else none
        else none := by
  rw [readItems]
  split
  · next hbegun => simp [hbegun]
  · next hbegun =>
    rw [if_neg (head?_ne_some hbegun)]
    cases element (skipGaps false cs) with
    | none => rfl
    | some r =>
      obtain ⟨item, rest⟩ := r
      simp only [Option.bind_some]
      split
      · next hclose => simp [hclose]
      · next hcomma => simp [hcomma]
      · next hclose hcomma =>
        rw [if_neg (head?_ne_some hclose), if_neg (head?_ne_some hcomma)]

/-- The bound on the number of items does not matter where it exceeds what is left. -/
theorem itemsUpTo_eq (h : Follows swap swap.item element) (n : Nat) :
    ∀ cs : List Char, cs.length < n → itemsUpTo element n cs = readItems element cs := by
  induction n with
  | zero => intro cs hshort; omega
  | succ n ih =>
    intro cs hshort
    rw [readItems_eq]
    show Toml.opening gaps ']' (Toml.series gaps ']' element (itemsUpTo element n)) cs = _
    unfold gaps
    rw [opening_eq, series_eq]
    split
    · rfl
    · apply Option.bind_congr
      rintro ⟨item, rest⟩ hread
      have hbegun := (skipGaps_suffix false cs).length_le
      have hrest := (h.suffix hread).length_le
      have hlater := (skipGaps_suffix false rest).length_le
      dsimp only
      split
      · rfl
      · split
        · next hcomma =>
          have htail := length_tail_lt hcomma
          rw [if_pos (by omega), ih _ (by omega)]
        · rfl

/-- Reading the items of an array follows the replacement. -/
theorem readItems_follows (h : Follows swap swap.item element) :
    Follows swap swap.item.list (readItems element) :=
  .limit (itemsUpTo_follows h) (itemsUpTo_eq h)

/-- A pair is a path, an equals sign and an item. -/
theorem readPair_eq (element : ItemReader) (cs : List Char) :
    readPair element cs =
      ((Reader.andThen readPath ((bare (expect '=')).andThen (spaces.andThen element))).mapped
        fun x => (x.1, x.2.2.2)) cs := by
  unfold readPair Reader.mapped Reader.andThen spaces bare
  cases readPath cs with
  | none => rfl
  | some r =>
    obtain ⟨path, rest⟩ := r
    cases hequals : expect '=' rest with
    | none => simp [hequals]
    | some rest =>
      cases hitem : element (skipSpaces rest) <;> simp [hequals, hitem]

/-- Reading a pair follows the replacement. -/
theorem readPair_follows (h : Follows swap swap.item element) :
    Follows swap (swap.path.pair swap.item) (readPair element) := by
  have hequals : Follows swap (.plain Unit) (bare (expect '=')) :=
    expect_follows (by decide) (by decide)
  refine ((readPath_follows.andThen (hequals.andThen (spaces_follows.andThen h))).mapped
    ?_ ?_ ?_).congr (readPair_eq element)
  · rintro ⟨path, _, _, item⟩
    rfl
  · rintro ⟨path, _, _, item⟩
    simp [Marking.pair, Marking.plain]
  · rintro ⟨path, _, _, item⟩ ⟨hpath, _, _, hitem⟩
    exact ⟨hpath, hitem⟩

/-- Reading so many pairs follows the replacement. -/
theorem pairsUpTo_follows (h : Follows swap swap.item element) (n : Nat) :
    Follows swap (swap.path.pair swap.item).list (pairsUpTo element n) := by
  induction n with
  | zero => exact .refuse
  | succ n ih =>
    exact .series spaces_follows (by decide) (by decide) (readPair_follows h) ih

/-- Skipping spaces leaves the end of what was given. -/
theorem skipSpaces_suffix (cs : List Char) : skipSpaces cs <:+ cs := List.dropWhile_suffix _

/-- The pairs of an inline table are read one by one up to the brace. -/
theorem readPairs_eq (element : ItemReader) (cs : List Char) :
    readPairs element cs =
      (readPair element cs).bind fun r =>
        if (skipSpaces r.2).head? = some '\x7d' then some ([r.1], (skipSpaces r.2).tail)
        else if (skipSpaces r.2).head? = some ',' then
          if (skipSpaces r.2).tail.length < cs.length then
            (readPairs element (skipSpaces r.2).tail).map fun s => (r.1 :: s.1, s.2)
          else none
        else none := by
  rw [readPairs]
  cases readPair element cs with
  | none => rfl
  | some r =>
    obtain ⟨pair, rest⟩ := r
    simp only [Option.bind_some]
    split
    · next hclose => simp [hclose]
    · next hcomma => simp [hcomma]
    · next hclose hcomma =>
      rw [if_neg (head?_ne_some hclose), if_neg (head?_ne_some hcomma)]

/-- The bound on the number of pairs does not matter where it exceeds what is left. -/
theorem pairsUpTo_eq (h : Follows swap swap.item element) (n : Nat) :
    ∀ cs : List Char, cs.length < n → pairsUpTo element n cs = readPairs element cs := by
  induction n with
  | zero => intro cs hshort; omega
  | succ n ih =>
    intro cs hshort
    rw [readPairs_eq]
    show Toml.series spaces '\x7d' (readPair element) (pairsUpTo element n) cs = _
    unfold spaces
    rw [series_eq]
    apply Option.bind_congr
    rintro ⟨pair, rest⟩ hread
    have hrest := ((readPair_follows h).suffix hread).length_le
    have hlater := (skipSpaces_suffix rest).length_le
    dsimp only
    split
    · rfl
    · split
      · next hcomma =>
        have htail := length_tail_lt hcomma
        rw [if_pos (by omega), ih _ (by omega)]
      · rfl

/-- Reading the pairs of an inline table follows the replacement. -/
theorem readPairs_follows (h : Follows swap swap.item element) :
    Follows swap (swap.path.pair swap.item).list (readPairs element) :=
  .limit (pairsUpTo_follows h) (pairsUpTo_eq h)

/-- An inline table may be closed at once, or has pairs. -/
theorem readInline_eq (element : ItemReader) (cs : List Char) :
    readInline element cs = Toml.opening spaces '\x7d' (readPairs element) cs := by
  unfold spaces readInline
  rw [opening_eq]
  split
  · next hclose => simp [hclose]
  · next hclose => rw [if_neg (head?_ne_some hclose)]

/-- Reading what is between the braces of an inline table follows the replacement. -/
theorem readInline_follows (h : Follows swap swap.item element) :
    Follows swap (swap.path.pair swap.item).list (readInline element) :=
  (Follows.opening spaces_follows (by decide) (by decide) (readPairs_follows h)).congr
    (readInline_eq element)

/-- Reads an array of items. -/
def bracketed (element : ItemReader) : Reader Item :=
  ((bare (expect '[')).andThen (readItems element)).spanned.mapped fun x => .array x.1.2 x.2

/-- Reads an inline table of items. -/
def braced (element : ItemReader) : Reader Item :=
  ((bare (expect '\x7b')).andThen (readInline element)).spanned.changed fun x =>
    (inlineEntries? x.1.2).map fun entries => .table .inline entries (some x.2)

/-- An item is an array, an inline table or a scalar, by its first character. -/
theorem readItem_succ (depth : Nat) (cs : List Char) :
    readItem (depth + 1) cs = Reader.ifNext (· == '[') (bracketed (readItem depth))
      (Reader.ifNext (· == '\x7b') (braced (readItem depth)) readScalar) cs := by
  unfold readItem
  split
  · rw [ifNext_self]
    simp [bracketed, Reader.mapped, Reader.spanned, Reader.andThen, bare, expect_cons_self,
      Function.comp_def]
  · next body =>
    rw [ifNext_other fun _ h => absurd (List.cons.inj h).1 (by decide), ifNext_self]
    cases hinline : readInline (readItem depth) body with
    | none =>
      simp [braced, Reader.changed, Reader.spanned, Reader.andThen, bare, expect_cons_self, hinline]
    | some r =>
      simp [braced, Reader.changed, Reader.spanned, Reader.andThen, bare, expect_cons_self, hinline,
        Function.comp_def]
  · next hbracket hbrace => rw [ifNext_other hbracket, ifNext_other hbrace]

/-- Reading an array follows the replacement if reading its items does. -/
theorem bracketed_follows (h : Follows swap swap.item element) :
    Follows swap swap.item (bracketed element) := by
  have hbracket : Follows swap (.plain Unit) (bare (expect '[')) :=
    expect_follows (by decide) (by decide)
  refine (hbracket.andThen (readItems_follows h)).spanned.mapped ?_ ?_ ?_
  · rintro ⟨⟨_, items⟩, extent⟩
    exact (Item.edit_array items extent).symm
  · rintro ⟨⟨_, items⟩, extent⟩
    exact (Item.count_array items extent).trans (Nat.zero_add _).symm
  · rintro ⟨⟨_, items⟩, extent⟩ ⟨⟨_, hitems⟩, clear, holds⟩
    refine .array hitems clear fun hspans => ?_
    have hpos := holds hspans
    simp only [Marking.pair, Marking.plain, Nat.zero_add] at hpos
    exact hpos

/-- The pairs between braces come to the entries of a table, edited or not. -/
theorem braced_carries :
    (((Marking.plain Unit).pair (swap.path.pair swap.item).list).spanned swap).Carries swap.item
      (fun x => ∀ pair ∈ x.1.2, pair.2.Distinct)
      fun x => (inlineEntries? x.1.2).map fun entries => .table .inline entries (some x.2) := by
  constructor
  · rintro ⟨⟨_, pairs⟩, extent⟩ item _ hchange
    obtain ⟨entries, hentries, rfl⟩ := Option.map_eq_some_iff.mp hchange
    refine Option.map_eq_some_iff.mpr ⟨_, inlineEntries?_edit hentries, ?_⟩
    exact (Item.edit_table .inline entries (some extent)).symm
  · rintro ⟨⟨_, pairs⟩, extent⟩ item hdistinct hchange
    obtain ⟨entries, hentries, rfl⟩ := Option.map_eq_some_iff.mp hchange
    refine (Item.count_table ..).trans ((inlineEntries?_count hdistinct hentries).trans ?_)
    simp [Marking.spanned, Marking.pair, Marking.plain, Marking.list, Swap.path, Swap.item]
  · rintro ⟨⟨_, pairs⟩, extent⟩ item hdistinct hchange ⟨⟨_, hpairs⟩, clear, holds⟩
    obtain ⟨entries, hentries, rfl⟩ := Option.map_eq_some_iff.mp hchange
    have hplaced := inlineEntries?_placed hpairs hentries
    refine .inline (fun entry hentry => (hplaced entry hentry).1)
      (fun entry hentry => (hplaced entry hentry).2) clear fun hspans => ?_
    rw [inlineEntries?_count hdistinct hentries]
    have hpos := holds hspans
    simp only [Marking.pair, Marking.plain, Marking.list, Swap.path, Swap.item,
      Nat.zero_add] at hpos
    exact hpos

/-- Reading an inline table follows the replacement if reading its items does and they have no
double keys. -/
theorem braced_follows (h : Follows swap swap.item element)
    (distinct : Invariant.Reads Item.Distinct element) :
    Follows swap swap.item (braced element) := by
  have hbrace : Follows swap (.plain Unit) (bare (expect '\x7b')) :=
    expect_follows (by decide) (by decide)
  refine (hbrace.andThen (readInline_follows h)).spanned.changed ?_ braced_carries
  intro cs rest x hread
  obtain ⟨hread, -⟩ := Reader.spanned_eq_some_iff.mp hread
  obtain ⟨middle, -, hpairs⟩ := Reader.andThen_eq_some_iff.mp hread
  exact Invariant.readInline distinct hpairs

/-- Reading an item follows the replacement, however deep items may be. -/
theorem readItem_follows (depth : Nat) : Follows swap swap.item (readItem depth) := by
  induction depth with
  | zero => exact readScalar_follows
  | succ depth ih =>
    exact ((bracketed_follows ih).ifNext _ ((braced_follows ih
      (invariant_distinct.readItem depth)).ifNext _ readScalar_follows)).congr (readItem_succ depth)

end Parts

/-! ## Statements -/

/-- Reads what comes after the first bracket of a header, and whether there is a second one. -/
def headerBody : Reader (Bool × Path) :=
  Reader.ifNext (· == '[')
    (((bare (expect '[')).andThen (Reader.andThen readPath
      ((bare (expect ']')).andThen (bare (expect ']'))))).mapped fun x => (true, x.2.1))
    ((Reader.andThen readPath (bare (expect ']'))).mapped fun x => (false, x.1))

/-- The statement of a header. -/
def Statement.ofHeader (row : Bool) (path : Path) (extent : Extent) : Statement :=
  if row then .rowHeader path extent else .header path extent

section Statements

variable {swap : Swap}

/-- Reading the inside of a header follows the replacement. -/
theorem headerBody_follows : Follows swap ((Marking.plain Bool).pair swap.path) headerBody := by
  have hopen : Follows swap (.plain Unit) (bare (expect '[')) :=
    expect_follows (by decide) (by decide)
  have hclose : Follows swap (.plain Unit) (bare (expect ']')) :=
    expect_follows (by decide) (by decide)
  refine Follows.ifNext _ ?_ ?_
  · refine (hopen.andThen (readPath_follows.andThen (hclose.andThen hclose))).mapped ?_ ?_ ?_
    · rintro ⟨_, path, _, _⟩
      rfl
    · rintro ⟨_, path, _, _⟩
      rfl
    · rintro ⟨_, path, _, _⟩ ⟨_, hpath, _, _⟩
      exact ⟨trivial, hpath⟩
  · refine (readPath_follows.andThen hclose).mapped ?_ ?_ ?_
    · rintro ⟨path, _⟩
      rfl
    · rintro ⟨path, _⟩
      rfl
    · rintro ⟨path, _⟩ ⟨hpath, _⟩
      exact ⟨trivial, hpath⟩

/-- A header is a bracket and what comes after it, with its stretch. -/
theorem readHeader_eq (cs : List Char) :
    readHeader cs = (((bare (expect '[')).andThen headerBody).spanned.mapped fun x =>
      Statement.ofHeader x.1.2.1 x.1.2.2 x.2) cs := by
  unfold readHeader
  simp only [Reader.mapped, Reader.spanned, Reader.andThen, bare]
  split
  · next body =>
    have hbody : headerBody ('[' :: body) = (readPath body).bind fun r =>
        (expect ']' r.2).bind fun rest => (expect ']' rest).map fun rest => ((true, r.1), rest) := by
      rw [headerBody, ifNext_self]
      simp [Reader.mapped, Reader.andThen, bare, expect_cons_self, Option.map_bind,
        Option.bind_map, Function.comp_def]
    simp only [expect_cons_self, Option.map_some, Option.bind_some, hbody]
    cases readPath body with
    | none => rfl
    | some r =>
      cases hfirst : expect ']' r.2 with
      | none => simp [hfirst]
      | some rest => cases hsecond : expect ']' rest <;> simp [hfirst, hsecond, Statement.ofHeader]
  · next body hsingle =>
    have hbody : headerBody body = (readPath body).bind fun r =>
        (expect ']' r.2).map fun rest => ((false, r.1), rest) := by
      rw [headerBody, ifNext_other hsingle]
      simp [Reader.mapped, Reader.andThen, bare, Option.map_bind, Function.comp_def]
    simp only [expect_cons_self, Option.map_some, Option.bind_some, hbody]
    cases readPath body with
    | none => rfl
    | some r => cases hclose : expect ']' r.2 <;> simp [hclose, Statement.ofHeader]
  · next hdouble hsingle => simp [expect_other hsingle]

/-- Reading a header follows the replacement. -/
theorem readHeader_follows : Follows swap swap.statement readHeader := by
  have hopen : Follows swap (.plain Unit) (bare (expect '[')) :=
    expect_follows (by decide) (by decide)
  refine ((hopen.andThen headerBody_follows).spanned.mapped ?_ ?_ ?_).congr readHeader_eq
  · rintro ⟨⟨_, _ | _, path⟩, extent⟩ <;> rfl
  · rintro ⟨⟨_, _ | _, path⟩, extent⟩ <;> rfl
  · rintro ⟨⟨_, _ | _, path⟩, extent⟩ ⟨⟨_, _, hpath⟩, clear, _⟩ <;> exact ⟨hpath, clear⟩

/-- Reads a statement without the rest of its line. -/
def statementOnly : Reader Statement :=
  Reader.ifNext (· == '[') readHeader
    (Reader.mapped (readPair readValue) fun x => .assign x.1 x.2)

/-- A statement ends its line. -/
theorem readStatement_eq (cs : List Char) :
    readStatement cs = ((statementOnly.andThen (bare restOfLine?)).mapped Prod.fst) cs := by
  have hline (r : Statement × List Char) : ((restOfLine? r.2).bind fun rest => some (r.1, rest)) =
      (((bare restOfLine? r.2).map fun s => ((r.1, s.1), s.2)).map fun s => (s.1.1, s.2)) := by
    unfold bare
    cases restOfLine? r.2 <;> rfl
  unfold readStatement Reader.mapped Reader.andThen statementOnly
  rw [Option.map_bind]
  split
  · rw [ifNext_self]
    exact Option.bind_congr fun r _ => hline r
  · next hbracket =>
    rw [ifNext_other hbracket]
    exact Option.bind_congr fun r _ => hline r

/-- Reading a statement without the rest of its line follows the replacement. -/
theorem statementOnly_follows : Follows swap swap.statement statementOnly := by
  refine readHeader_follows.ifNext _ ((readPair_follows (readItem_follows _)).mapped ?_ ?_ ?_)
  · rintro ⟨path, item⟩
    rfl
  · rintro ⟨path, item⟩
    exact (Nat.zero_add _).symm
  · rintro ⟨path, item⟩ hplaced
    exact hplaced

/-- Reading a statement follows the replacement. -/
theorem readStatement_follows : Follows swap swap.statement readStatement := by
  have hline : Follows swap (.plain Unit) (bare restOfLine?) :=
    (restOfLine?_nearby swap.isQuote).follows
  exact (statementOnly_follows.ahead hline).congr readStatement_eq

/-- Reads a line without a statement. -/
def commentLine : Reader (Option Statement) :=
  (Reader.andThen (fun cs => some ((), skipComment cs)) (bare lineEnd?)).mapped fun _ => none

/-- Reads a line after its blanks. -/
def lineBody : Reader (Option Statement) :=
  Reader.ifNext (· == '#') commentLine
    ((bare lineEnd?).afterOr (fun cs => some (none, cs)) (Reader.mapped readStatement some))

/-- A line is read behind its blanks. -/
theorem readLine_eq (cs : List Char) :
    readLine cs = ((spaces.andThen lineBody).mapped Prod.snd) cs := by
  unfold readLine
  have hbody : ((spaces.andThen lineBody).mapped Prod.snd) cs = lineBody (skipSpaces cs) := by
    cases h : lineBody (skipSpaces cs) <;> simp [spaces, Reader.mapped, Reader.andThen, h]
  rw [hbody, lineBody]
  split
  · next hempty => simp [hempty, Reader.ifNext, Reader.afterOr, bare, lineEnd?]
  · next comment hcomment =>
    rw [hcomment, ifNext_self]
    simp [commentLine, Reader.mapped, Reader.andThen, bare, Function.comp_def]
  · next hempty hcomment =>
    have hline : lineEnd? (skipSpaces cs) = newline? (skipSpaces cs) := by
      cases h : skipSpaces cs with
      | nil => exact absurd h hempty
      | cons => rfl
    rw [ifNext_other hcomment]
    cases h : newline? (skipSpaces cs) <;> simp [Reader.afterOr, Reader.mapped, bare, hline, h]

/-- Reading a line follows the replacement. -/
theorem readLine_follows : Follows swap swap.statement.option readLine := by
  have hcomment : Follows swap swap.statement.option commentLine := by
    refine ((skipComment_nearby swap.isQuote).follows.andThen
      (lineEnd?_stops swap.isQuote).toNearby.follows).mapped ?_ ?_ ?_
    · intro x
      rfl
    · intro x
      rfl
    · intro x _ y hy
      cases hy
  have hstatement : Follows swap swap.statement.option (Reader.mapped readStatement some) := by
    refine readStatement_follows.mapped ?_ ?_ ?_
    · intro x
      rfl
    · intro x
      rfl
    · rintro x hx _ ⟨⟩
      exact hx
  have hempty : Follows swap swap.statement.option fun cs => some (none, cs) :=
    .pure rfl rfl fun _ h => nomatch h
  have hbody : Follows swap swap.statement.option lineBody :=
    hcomment.ifNext _ (.afterOr (lineEnd?_stops swap.isQuote) hempty hstatement)
  exact (spaces_follows.behind hbody).congr readLine_eq

/-- Reads so many lines at most. -/
def linesUpTo : Nat → Reader (List Statement)
  | 0 => fun _ => none
  | n + 1 =>
    Reader.ifNext (fun _ => true)
      (((Reader.progressing readLine).andThen (linesUpTo n)).mapped fun x => x.1.toList ++ x.2)
      fun cs => some ([], cs)

/-- Reads all lines, and leaves nothing. -/
def allLines : Reader (List Statement) := fun cs =>
  (Statement.readAll cs).map fun statements => (statements, [])

/-- Reading so many lines follows the replacement. -/
theorem linesUpTo_follows (n : Nat) : Follows swap swap.statement.list (linesUpTo n) := by
  induction n with
  | zero => exact .refuse
  | succ n ih =>
    refine Follows.ifNext _ ((readLine_follows.progressing.andThen ih).mapped ?_ ?_ ?_)
      (.pure rfl rfl fun _ h => nomatch h)
    · rintro ⟨_ | statement, statements⟩ <;> rfl
    · rintro ⟨_ | statement, statements⟩
      · exact (Nat.zero_add _).symm
      · rfl
    · rintro ⟨_ | statement, statements⟩ ⟨hfirst, hlater⟩
      · exact hlater
      · exact List.forall_mem_cons.mpr ⟨hfirst statement rfl, hlater⟩

/-- The bound on the number of lines does not matter where it exceeds what is left. -/
theorem linesUpTo_eq (n : Nat) :
    ∀ cs : List Char, cs.length < n → linesUpTo n cs = allLines cs := by
  induction n with
  | zero => intro cs hshort; omega
  | succ n ih =>
    intro cs hshort
    unfold allLines
    rw [Statement.readAll]
    cases cs with
    | nil => rfl
    | cons c cs =>
      have hstep : linesUpTo (n + 1) (c :: cs) =
          ((Reader.progressing readLine).andThen (linesUpTo n)).mapped
            (fun x => x.1.toList ++ x.2) (c :: cs) := by
        simp [linesUpTo, Reader.ifNext]
      rw [hstep]
      cases hline : readLine (c :: cs) with
      | none => simp [Reader.mapped, Reader.andThen, Reader.progressing, hline]
      | some r =>
        obtain ⟨statement, rest⟩ := r
        by_cases hless : rest.length < (c :: cs).length
        · have hrest := ih rest (by omega)
          have hread : Reader.progressing readLine (c :: cs) = some (statement, rest) :=
            Reader.progressing_eq_some_iff.mpr ⟨hline, hless⟩
          rw [List.length_cons] at hless
          simp [Reader.mapped, Reader.andThen, hread, hrest, allLines, hless, Function.comp_def]
        · have hread : Reader.progressing readLine (c :: cs) = none := by
            rw [Option.eq_none_iff_forall_ne_some]
            rintro ⟨found, left⟩ h
            obtain ⟨hfound, hleft⟩ := Reader.progressing_eq_some_iff.mp h
            rw [hline] at hfound
            cases hfound
            exact hless hleft
          rw [List.length_cons] at hless
          simp [Reader.mapped, Reader.andThen, hread, hless]

/-- Reading all lines follows the replacement. -/
theorem allLines_follows : Follows swap swap.statement.list allLines :=
  .limit linesUpTo_follows linesUpTo_eq

end Statements

end PongFixture.Toml

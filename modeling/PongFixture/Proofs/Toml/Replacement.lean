import Mathlib.Algebra.GroupWithZero.Nat
import PongFixture.Proofs.Toml.Bodies

/-!
# Another text in the place of one

A text on one line of a document may be replaced by another (`Swap`). A reader that begins before it
reads the same as before, or has come past it and read it as the text of an item, in which case what
it answers is edited at that text. There is a third case: the reader has gone into the text or over it
without taking it for an item, as one does that takes it for a key or finds it in a comment. Nothing
is known of such a reader, but it can no longer answer with an item that is the text (`Course`).

What a reader answers may hold items, keys and stretches, so a `Marking` says of a type what editing
means for its values. A reader that follows the replacement (`Follows`) may be combined with others,
and the combination follows it too.
-/

set_option autoImplicit false

namespace PongFixture.Toml

/-- A text on one line of a document, and another one that may stand in its place: what comes before
both, the quote that both begin with, what comes after it up to the end of either, and what comes after
both. -/
structure Swap where
  before : List Char
  quote : Char
  old : List Char
  new : List Char
  after : List Char
  oldText : List Char
  newText : List Char
  isQuote : IsQuote quote
  oldRead : readText (quote :: (old ++ after)) = some (oldText, after)
  newRead : readText (quote :: (new ++ after)) = some (newText, after)
  oldLine : '\n' ∉ old
  newLine : '\n' ∉ new

namespace Swap

variable (swap : Swap)

/-- What is left of the document where the text begins. -/
def here : List Char := swap.quote :: (swap.old ++ swap.after)

/-- What is left there with the other text in its place. -/
def there : List Char := swap.quote :: (swap.new ++ swap.after)

/-- What comes after the text is shorter than what is left where it begins. -/
theorem length_after_lt_here : swap.after.length < swap.here.length := by
  simp only [here, List.length_cons, List.length_append]
  omega

/-- What comes after the other text is shorter than what is left where it begins. -/
theorem length_after_lt_there : swap.after.length < swap.there.length := by
  simp only [there, List.length_cons, List.length_append]
  omega

/-- The place in the edited document of one that is not within the text. -/
def move (place : Nat) : Nat :=
  if swap.here.length ≤ place then place - swap.here.length + swap.there.length else place

/-- A place before the text moves with it. -/
theorem move_ahead (ahead : List Char) :
    swap.move (ahead ++ swap.here).length = (ahead ++ swap.there).length := by
  simp only [move, List.length_append]
  rw [if_pos (by omega)]
  omega

/-- A place behind the text stays. -/
theorem move_past {place : Nat} (h : place ≤ swap.after.length) : swap.move place = place := by
  have hlength := swap.length_after_lt_here
  rw [move, if_neg (by omega)]

/-- The stretch in the edited document. -/
def moveExtent (extent : Extent) : Extent := ⟨swap.move extent.start, swap.move extent.stop⟩

/-- A place of the document that is not within the text. -/
def Outside (place : Nat) : Prop :=
  (∃ ahead : List Char, place = (ahead ++ swap.here).length ∧ ahead.length ≤ swap.before.length) ∨
    place ≤ swap.after.length

/-- A place before the text is not within it. -/
theorem outside_ahead {ahead : List Char} (h : ahead.length ≤ swap.before.length) :
    swap.Outside (ahead ++ swap.here).length := .inl ⟨ahead, rfl, h⟩

/-- A stretch that neither begins nor ends within the text. -/
def Clear (extent : Extent) : Prop := swap.Outside extent.start ∧ swap.Outside extent.stop

/-- A stretch that begins before the end of the text and ends behind its beginning. -/
def Spans (extent : Extent) : Prop :=
  swap.here.length ≤ extent.start ∧ extent.stop ≤ swap.after.length

end Swap

/-- What a replacement means for the values of a type: what they become, how many texts of theirs are the
one that is replaced, and whether their stretches are where they may be. -/
structure Marking (α : Type) where
  edit : α → α
  count : α → Nat
  placed : α → Prop

/-- Values that hold neither items nor stretches. -/
def Marking.plain (α : Type) : Marking α := ⟨id, fun _ => 0, fun _ => True⟩

/-- Pairs of values. -/
def Marking.pair {α β : Type} (first : Marking α) (second : Marking β) : Marking (α × β) where
  edit x := (first.edit x.1, second.edit x.2)
  count x := first.count x.1 + second.count x.2
  placed x := first.placed x.1 ∧ second.placed x.2

/-- Lists of values. -/
def Marking.list {α : Type} (marking : Marking α) : Marking (List α) where
  edit xs := xs.map marking.edit
  count xs := (xs.map marking.count).sum
  placed xs := ∀ x ∈ xs, marking.placed x

/-- Values that need not be there. -/
def Marking.option {α : Type} (marking : Marking α) : Marking (Option α) where
  edit x? := x?.map marking.edit
  count x? := (x?.map marking.count).getD 0
  placed x? := ∀ x ∈ x?, marking.placed x

/-- Values with the stretch that they are read from. Such a stretch goes over the text only if the text
is in the value. -/
def Marking.spanned {α : Type} (marking : Marking α) (swap : Swap) : Marking (α × Extent) where
  edit x := (marking.edit x.1, swap.moveExtent x.2)
  count x := marking.count x.1
  placed x := marking.placed x.1 ∧ swap.Clear x.2 ∧ (swap.Spans x.2 → 0 < marking.count x.1)

section Course

variable {α β : Type}

/-- What comes of an answer of a reader that begins before the text: it has not come to the text, it has
read the text as an item, or it has gone astray within or behind it. -/
inductive Course (swap : Swap) (marking : Marking α) (reader : Reader α) (ahead : List Char) :
    α → List Char → Prop
  | ahead {x : α} {left : List Char}
      (same : reader (ahead ++ swap.there) = some (marking.edit x, left ++ swap.there))
      (none : marking.count x = 0) (placed : marking.placed x) :
      Course swap marking reader ahead x (left ++ swap.here)
  | past {x : α} {rest : List Char}
      (same : reader (ahead ++ swap.there) = some (marking.edit x, rest))
      (short : rest.length ≤ swap.after.length)
      (one : marking.count x = 1) (placed : marking.placed x) :
      Course swap marking reader ahead x rest
  | astray {x : α} {rest : List Char} (short : rest.length < swap.here.length)
      (none : marking.count x = 0) : Course swap marking reader ahead x rest

/-- A reader that follows a replacement. Behind the beginning of the text it answers with nothing that
holds the text, and behind its end with nothing that is edited. -/
structure Follows (swap : Swap) (marking : Marking α) (reader : Reader α) : Prop where
  suffix : ∀ {cs rest : List Char} {x : α}, reader cs = some (x, rest) → rest <:+ cs
  lost : ∀ {cs rest : List Char} {x : α}, reader cs = some (x, rest) →
    cs.length < swap.here.length → marking.count x = 0
  still : ∀ {cs rest : List Char} {x : α}, reader cs = some (x, rest) →
    cs.length ≤ swap.after.length → marking.edit x = x ∧ marking.placed x
  course : ∀ {ahead rest : List Char} {x : α}, ahead.length ≤ swap.before.length →
    reader (ahead ++ swap.here) = some (x, rest) → Course swap marking reader ahead x rest

variable {swap : Swap} {marking : Marking α} {other : Marking β} {reader : Reader α}

/-- Readers that give the same follow alike. -/
theorem Follows.congr {same : Reader α} (h : Follows swap marking reader)
    (equal : ∀ cs, same cs = reader cs) : Follows swap marking same := by
  rwa [show same = reader from funext equal]

/-- A reader of plain values that does not depend on what is behind a quote, if it ends before that. -/
theorem Nearby.follows (h : Nearby swap.quote reader) : Follows swap (.plain α) reader where
  suffix := h.suffix
  lost _ _ := rfl
  still _ _ := ⟨rfl, trivial⟩
  course := by
    intro ahead rest x _ hread
    by_cases hlong : (swap.old ++ swap.after).length < rest.length
    · obtain ⟨left, rfl, hother⟩ := h.nearby hread hlong
      exact .ahead (hother (swap.new ++ swap.after)) rfl trivial
    · refine .astray ?_ rfl
      simp only [Swap.here, List.length_cons]
      omega

/-- One reader after another. -/
def Reader.andThen (first : Reader α) (second : Reader β) : Reader (α × β) :=
  fun cs => (first cs).bind fun r => (second r.2).map fun s => ((r.1, s.1), s.2)

/-- Two readers in a row answer exactly if the second goes on where the first has ended. -/
theorem Reader.andThen_eq_some_iff {first : Reader α} {second : Reader β} {cs rest : List Char}
    {x : α × β} : first.andThen second cs = some (x, rest) ↔
      ∃ middle, first cs = some (x.1, middle) ∧ second middle = some (x.2, rest) := by
  obtain ⟨y, z⟩ := x
  constructor
  · intro h
    obtain ⟨⟨y', middle⟩, hfirst, hmap⟩ := Option.bind_eq_some_iff.mp h
    obtain ⟨⟨z', rest'⟩, hsecond, same⟩ := Option.map_eq_some_iff.mp hmap
    cases same
    exact ⟨middle, hfirst, hsecond⟩
  · rintro ⟨middle, hfirst, hsecond⟩
    simp only at hfirst hsecond
    simp [Reader.andThen, hfirst, hsecond]

/-- Two readers in a row follow the replacement if each does. -/
theorem Follows.andThen {second : Reader β} (h : Follows swap marking reader)
    (hsecond : Follows swap other second) :
    Follows swap (marking.pair other) (reader.andThen second) where
  suffix hread := by
    obtain ⟨middle, hfirst, hnext⟩ := Reader.andThen_eq_some_iff.mp hread
    exact (hsecond.suffix hnext).trans (h.suffix hfirst)
  lost {cs rest x} hread hshort := by
    obtain ⟨middle, hfirst, hnext⟩ := Reader.andThen_eq_some_iff.mp hread
    have hmiddle := (h.suffix hfirst).length_le
    have hx := h.lost hfirst hshort
    have hy := hsecond.lost hnext (by omega)
    simp [Marking.pair, hx, hy]
  still {cs rest x} hread hshort := by
    obtain ⟨middle, hfirst, hnext⟩ := Reader.andThen_eq_some_iff.mp hread
    have hmiddle := (h.suffix hfirst).length_le
    obtain ⟨hx, hplaced⟩ := h.still hfirst hshort
    obtain ⟨hy, hplaced'⟩ := hsecond.still hnext (by omega)
    exact ⟨by simp [Marking.pair, hx, hy], hplaced, hplaced'⟩
  course {ahead rest x} hahead hread := by
    obtain ⟨middle, hfirst, hnext⟩ := Reader.andThen_eq_some_iff.mp hread
    have hlength := swap.length_after_lt_here
    have hmiddle := (h.suffix hfirst).length_le
    cases h.course hahead hfirst with
    | @ahead left same hnone hplaced =>
      have hleft : left.length ≤ swap.before.length := by
        simp only [List.length_append] at hmiddle
        omega
      cases hsecond.course hleft hnext with
      | ahead same' hnone' hplaced' =>
        refine .ahead (Reader.andThen_eq_some_iff.mpr ⟨_, same, same'⟩) ?_ ⟨hplaced, hplaced'⟩
        simp [Marking.pair, hnone, hnone']
      | past same' hshort hone hplaced' =>
        refine .past (Reader.andThen_eq_some_iff.mpr ⟨_, same, same'⟩) hshort ?_ ⟨hplaced, hplaced'⟩
        simp [Marking.pair, hnone, hone]
      | astray hshort hnone' =>
        exact .astray hshort (by simp [Marking.pair, hnone, hnone'])
    | past same hshort hone hplaced =>
      obtain ⟨hedit, hplaced'⟩ := hsecond.still hnext hshort
      have hnone := hsecond.lost hnext (by omega)
      have hrest := (hsecond.suffix hnext).length_le
      have hboth : reader.andThen second (ahead ++ swap.there) =
          some ((marking.pair other).edit x, rest) :=
        Reader.andThen_eq_some_iff.mpr ⟨middle, same, by simpa [Marking.pair, hedit] using hnext⟩
      refine .past hboth (by omega) ?_ ⟨hplaced, hplaced'⟩
      simp [Marking.pair, hone, hnone]
    | astray hshort hnone =>
      have hrest := (hsecond.suffix hnext).length_le
      have hnone' := hsecond.lost hnext hshort
      exact .astray (by omega) (by simp [Marking.pair, hnone, hnone'])

/-- A change of values that goes with editing and keeps the texts that are in them, for values that are
good. -/
structure Marking.Carries (marking : Marking α) (other : Marking β) (good : α → Prop)
    (change : α → Option β) : Prop where
  edit : ∀ {x y}, good x → change x = some y → change (marking.edit x) = some (other.edit y)
  count : ∀ {x y}, good x → change x = some y → other.count y = marking.count x
  placed : ∀ {x y}, good x → change x = some y → marking.placed x → other.placed y

/-- A reader whose answers are changed, or refused. -/
def Reader.changed (reader : Reader α) (change : α → Option β) : Reader β :=
  fun cs => (reader cs).bind fun r => (change r.1).map fun y => (y, r.2)

/-- A changed reader gives what the change makes of an answer. -/
theorem Reader.changed_eq_some_iff {change : α → Option β} {cs rest : List Char} {y : β} :
    reader.changed change cs = some (y, rest) ↔
      ∃ x, reader cs = some (x, rest) ∧ change x = some y := by
  constructor
  · intro h
    obtain ⟨⟨x, middle⟩, hread, hmap⟩ := Option.bind_eq_some_iff.mp h
    obtain ⟨z, hchange, same⟩ := Option.map_eq_some_iff.mp hmap
    cases same
    exact ⟨x, hread, hchange⟩
  · rintro ⟨x, hread, hchange⟩
    simp [Reader.changed, hread, hchange]

/-- A changed reader follows the replacement if the change goes with editing. -/
theorem Follows.changed {good : α → Prop} {change : α → Option β}
    (h : Follows swap marking reader)
    (hgood : ∀ {cs rest : List Char} {x : α}, reader cs = some (x, rest) → good x)
    (carries : marking.Carries other good change) : Follows swap other (reader.changed change) where
  suffix hread := by
    obtain ⟨x, hx, -⟩ := Reader.changed_eq_some_iff.mp hread
    exact h.suffix hx
  lost hread hshort := by
    obtain ⟨x, hx, hchange⟩ := Reader.changed_eq_some_iff.mp hread
    rw [carries.count (hgood hx) hchange, h.lost hx hshort]
  still hread hshort := by
    obtain ⟨x, hx, hchange⟩ := Reader.changed_eq_some_iff.mp hread
    obtain ⟨hedit, hplaced⟩ := h.still hx hshort
    have hsame := carries.edit (hgood hx) hchange
    rw [hedit, hchange] at hsame
    exact ⟨(Option.some.inj hsame).symm, carries.placed (hgood hx) hchange hplaced⟩
  course hahead hread := by
    obtain ⟨x, hx, hchange⟩ := Reader.changed_eq_some_iff.mp hread
    have hedit := carries.edit (hgood hx) hchange
    have hcount := carries.count (hgood hx) hchange
    have hplaces := carries.placed (hgood hx) hchange
    cases h.course hahead hx with
    | ahead same hnone hplaced =>
      exact .ahead (Reader.changed_eq_some_iff.mpr ⟨_, same, hedit⟩) (hcount.trans hnone)
        (hplaces hplaced)
    | past same hshort hone hplaced =>
      exact .past (Reader.changed_eq_some_iff.mpr ⟨_, same, hedit⟩) hshort (hcount.trans hone)
        (hplaces hplaced)
    | astray hshort hnone => exact .astray hshort (hcount.trans hnone)

/-- A reader whose answers are all changed. -/
def Reader.mapped (reader : Reader α) (change : α → β) : Reader β :=
  fun cs => (reader cs).map fun r => (change r.1, r.2)

/-- A mapped reader gives the change of an answer. -/
theorem Reader.mapped_eq_some_iff {change : α → β} {cs rest : List Char} {y : β} :
    reader.mapped change cs = some (y, rest) ↔ ∃ x, reader cs = some (x, rest) ∧ change x = y := by
  constructor
  · intro h
    obtain ⟨⟨x, _⟩, hread, same⟩ := Option.map_eq_some_iff.mp h
    cases same
    exact ⟨x, hread, rfl⟩
  · rintro ⟨x, hread, rfl⟩
    simp [Reader.mapped, hread]

/-- A reader without a result leaves what it leaves. -/
theorem bare_eq_some_iff {only : List Char → Option (List Char)} {cs rest : List Char} {x : Unit} :
    bare only cs = some (x, rest) ↔ only cs = some rest := by
  simp [bare]

/-- A mapped reader follows the replacement if the change goes with editing. -/
theorem Follows.mapped {change : α → β} (h : Follows swap marking reader)
    (hedit : ∀ x, change (marking.edit x) = other.edit (change x))
    (hcount : ∀ x, other.count (change x) = marking.count x)
    (hplaced : ∀ x, marking.placed x → other.placed (change x)) :
    Follows swap other (reader.mapped change) := by
  have hcarries : marking.Carries other (fun _ => True) fun x => some (change x) := by
    constructor
    · rintro x _ - ⟨⟩
      rw [hedit]
    · rintro x _ - ⟨⟩
      exact hcount x
    · rintro x _ - ⟨⟩
      exact hplaced x
  apply (h.changed (fun _ => trivial) hcarries).congr
  intro cs
  unfold Reader.changed Reader.mapped
  cases reader cs <;> rfl

/-- A reader behind one whose answers hold nothing. -/
theorem Follows.behind {first : Reader β} (hfirst : Follows swap (.plain β) first)
    (h : Follows swap marking reader) :
    Follows swap marking ((first.andThen reader).mapped Prod.snd) := by
  refine (hfirst.andThen h).mapped ?_ ?_ ?_
  · intro x
    rfl
  · intro x
    exact (Nat.zero_add _).symm
  · intro x hx
    exact hx.2

/-- A reader with one behind it whose answers hold nothing. -/
theorem Follows.ahead {second : Reader β} (h : Follows swap marking reader)
    (hsecond : Follows swap (.plain β) second) :
    Follows swap marking ((reader.andThen second).mapped Prod.fst) := by
  refine (h.andThen hsecond).mapped ?_ ?_ ?_
  · intro x
    rfl
  · intro x
    rfl
  · intro x hx
    exact hx.1

/-- A reader that answers without reading. -/
theorem Follows.pure {x : α} (hedit : marking.edit x = x) (hcount : marking.count x = 0)
    (hplaced : marking.placed x) : Follows swap marking fun cs => some (x, cs) where
  suffix hread := by
    cases hread
    exact List.suffix_rfl
  lost hread _ := by
    cases hread
    exact hcount
  still hread _ := by
    cases hread
    exact ⟨hedit, hplaced⟩
  course _ hread := by
    cases hread
    exact .ahead (by rw [hedit]) hcount hplaced

/-- A reader that refuses all. -/
theorem Follows.refuse : Follows swap marking fun _ => none where
  suffix hread := by cases hread
  lost hread _ := by cases hread
  still hread _ := by cases hread
  course _ hread := by cases hread

/-- A reader takes the same course as one that gives the same on the edited document. -/
theorem Course.of_same {other : Reader α} {ahead rest : List Char} {x : α}
    (h : Course swap marking reader ahead x rest)
    (same : other (ahead ++ swap.there) = reader (ahead ++ swap.there)) :
    Course swap marking other ahead x rest := by
  cases h with
  | ahead hthere hnone hplaced => exact .ahead (same.trans hthere) hnone hplaced
  | past hthere hshort hone hplaced => exact .past (same.trans hthere) hshort hone hplaced
  | astray hshort hnone => exact .astray hshort hnone

/-- A reader that is chosen by the next character. -/
def Reader.ifNext (p : Char → Bool) (first second : Reader α) : Reader α :=
  fun cs => if cs.head?.any p = true then first cs else second cs

/-- A choice of two readers by the next character follows the replacement if both do. -/
theorem Follows.ifNext {second : Reader α} (p : Char → Bool) (h : Follows swap marking reader)
    (hsecond : Follows swap marking second) :
    Follows swap marking (Reader.ifNext p reader second) where
  suffix hread := by
    unfold Reader.ifNext at hread
    split at hread
    · exact h.suffix hread
    · exact hsecond.suffix hread
  lost hread hshort := by
    unfold Reader.ifNext at hread
    split at hread
    · exact h.lost hread hshort
    · exact hsecond.lost hread hshort
  still hread hshort := by
    unfold Reader.ifNext at hread
    split at hread
    · exact h.still hread hshort
    · exact hsecond.still hread hshort
  course {ahead rest x} hahead hread := by
    -- The first character is the same with either text, since both begin with the same quote.
    have hhead : (ahead ++ swap.there).head? = (ahead ++ swap.here).head? := by
      cases ahead <;> rfl
    unfold Reader.ifNext at hread
    split at hread
    · next hp => exact (h.course hahead hread).of_same (by rw [Reader.ifNext, hhead, if_pos hp])
    · next hp => exact (hsecond.course hahead hread).of_same (by rw [Reader.ifNext, hhead, if_neg hp])

/-- A choice between two readers by whether another one, which is tried first, reads anything. -/
def Reader.afterOr (first : Reader β) (reader second : Reader α) : Reader α := fun cs =>
  match first cs with
  | some r => reader r.2
  | none => second cs

/-- A choice by what a reader finds that the quote stops follows the replacement if both
continuations do. -/
theorem Follows.afterOr {first : Reader β} (h : Stops swap.quote first)
    (hreader : Follows swap marking reader) {second : Reader α}
    (hsecond : Follows swap marking second) :
    Follows swap marking (first.afterOr reader second) where
  suffix hread := by
    unfold Reader.afterOr at hread
    split at hread
    · next hfirst => exact (hreader.suffix hread).trans (h.suffix hfirst)
    · exact hsecond.suffix hread
  lost hread hshort := by
    unfold Reader.afterOr at hread
    split at hread
    · next hfirst =>
      have hlength := (h.suffix hfirst).length_le
      exact hreader.lost hread (by omega)
    · exact hsecond.lost hread hshort
  still hread hshort := by
    unfold Reader.afterOr at hread
    split at hread
    · next hfirst =>
      have hlength := (h.suffix hfirst).length_le
      exact hreader.still hread (by omega)
    · exact hsecond.still hread hshort
  course {ahead rest x} hahead hread := by
    obtain ⟨answer, hanswer⟩ := h.stops ahead
    have hhere : first (ahead ++ swap.here) = answer.map fun r => (r.1, r.2 ++ swap.here) :=
      hanswer (swap.old ++ swap.after)
    have hthere : first (ahead ++ swap.there) = answer.map fun r => (r.1, r.2 ++ swap.there) :=
      hanswer (swap.new ++ swap.after)
    unfold Reader.afterOr at hread
    rw [hhere] at hread
    cases answer with
    | none => exact (hsecond.course hahead hread).of_same (by rw [Reader.afterOr, hthere]; rfl)
    | some found =>
      have hlength := (h.suffix hhere).length_le
      simp only [List.length_append] at hlength
      have hsame : first.afterOr reader second (ahead ++ swap.there) =
          reader (found.2 ++ swap.there) := by
        rw [Reader.afterOr, hthere]
        rfl
      cases hreader.course (by omega) hread with
      | ahead same hnone hplaced => exact .ahead (hsame.trans same) hnone hplaced
      | past same hshort hone hplaced => exact .past (hsame.trans same) hshort hone hplaced
      | astray hshort hnone => exact .astray hshort hnone

/-- A reader that has to read something. -/
def Reader.progressing (reader : Reader α) : Reader α :=
  fun cs => (reader cs).filter fun r => r.2.length < cs.length

/-- A progressing reader gives the answers that leave less. -/
theorem Reader.progressing_eq_some_iff {cs rest : List Char} {x : α} :
    reader.progressing cs = some (x, rest) ↔
      reader cs = some (x, rest) ∧ rest.length < cs.length := by
  simp [Reader.progressing, Option.filter_eq_some_iff]

/-- A progressing reader follows the replacement if the reader does. -/
theorem Follows.progressing (h : Follows swap marking reader) :
    Follows swap marking reader.progressing where
  suffix hread := h.suffix (Reader.progressing_eq_some_iff.mp hread).1
  lost hread hshort := h.lost (Reader.progressing_eq_some_iff.mp hread).1 hshort
  still hread hshort := h.still (Reader.progressing_eq_some_iff.mp hread).1 hshort
  course {ahead rest x} hahead hread := by
    obtain ⟨hread, hless⟩ := Reader.progressing_eq_some_iff.mp hread
    have hafter := swap.length_after_lt_there
    cases h.course hahead hread with
    | ahead same hnone hplaced =>
      refine .ahead (Reader.progressing_eq_some_iff.mpr ⟨same, ?_⟩) hnone hplaced
      simp only [List.length_append] at hless ⊢
      omega
    | past same hshort hone hplaced =>
      refine .past (Reader.progressing_eq_some_iff.mpr ⟨same, ?_⟩) hshort hone hplaced
      simp only [List.length_append]
      omega
    | astray hshort hnone => exact .astray hshort hnone

/-- A reader that keeps the stretch that it has read. -/
def Reader.spanned (reader : Reader α) : Reader (α × Extent) :=
  fun cs => (reader cs).map fun r => ((r.1, extentOf cs r.2), r.2)

/-- A spanned reader gives its answer with the stretch that it has read. -/
theorem Reader.spanned_eq_some_iff {cs rest : List Char} {x : α × Extent} :
    reader.spanned cs = some (x, rest) ↔
      reader cs = some (x.1, rest) ∧ x.2 = extentOf cs rest := by
  obtain ⟨y, extent⟩ := x
  constructor
  · intro h
    obtain ⟨⟨z, rest'⟩, hread, same⟩ := Option.map_eq_some_iff.mp h
    cases same
    exact ⟨hread, rfl⟩
  · rintro ⟨hread, rfl⟩
    simp only at hread
    simp [Reader.spanned, hread]

/-- A spanned reader follows the replacement if the reader does. -/
theorem Follows.spanned (h : Follows swap marking reader) :
    Follows swap (marking.spanned swap) reader.spanned where
  suffix hread := h.suffix (Reader.spanned_eq_some_iff.mp hread).1
  lost hread hshort := h.lost (Reader.spanned_eq_some_iff.mp hread).1 hshort
  still {cs rest x} hread hshort := by
    obtain ⟨y, extent⟩ := x
    obtain ⟨hy, hextent⟩ := Reader.spanned_eq_some_iff.mp hread
    obtain ⟨hedit, hplaced⟩ := h.still hy hshort
    have hrest := (h.suffix hy).length_le
    have hlength := swap.length_after_lt_here
    simp only at hy hextent hedit hplaced
    refine ⟨?_, hplaced, ⟨?_, ?_⟩, fun hspans => ?_⟩
    · simp only [Marking.spanned, hedit, hextent, extentOf, Swap.moveExtent]
      rw [swap.move_past hshort, swap.move_past (by omega)]
    · exact .inr (by rw [hextent]; exact hshort)
    · exact .inr (by rw [hextent]; exact Nat.le_trans hrest hshort)
    · have hstart := hspans.1
      simp only [hextent, extentOf] at hstart
      omega
  course {ahead rest x} hahead hread := by
    obtain ⟨y, extent⟩ := x
    obtain ⟨hy, hextent⟩ := Reader.spanned_eq_some_iff.mp hread
    have hlength := swap.length_after_lt_here
    have hrest := (h.suffix hy).length_le
    simp only at hy hextent
    subst hextent
    cases h.course hahead hy with
    | @ahead left same hnone hplaced =>
      have hleft : left.length ≤ swap.before.length := by
        simp only [List.length_append] at hrest
        omega
      refine .ahead (Reader.spanned_eq_some_iff.mpr ⟨same, ?_⟩) hnone
        ⟨hplaced, ⟨swap.outside_ahead hahead, swap.outside_ahead hleft⟩, fun hspans => ?_⟩
      · simp only [Marking.spanned, extentOf, Swap.moveExtent, Swap.move_ahead]
      · have hend := hspans.2
        simp only [extentOf, List.length_append] at hend
        omega
    | past same hshort hone hplaced =>
      refine .past (Reader.spanned_eq_some_iff.mpr ⟨same, ?_⟩) hshort hone
        ⟨hplaced, ⟨swap.outside_ahead hahead, .inr hshort⟩, fun _ => hone ▸ Nat.one_pos⟩
      simp only [Marking.spanned, extentOf, Swap.moveExtent, Swap.move_ahead]
      rw [swap.move_past hshort]
    | astray hshort hnone => exact .astray hshort hnone

/-- A reader that is the limit of readers which follow the replacement, each for longer texts. -/
theorem Follows.limit {approx : Nat → Reader α} (h : ∀ n, Follows swap marking (approx n))
    (same : ∀ n cs, cs.length < n → approx n cs = reader cs) : Follows swap marking reader where
  suffix {cs rest x} hread := by
    rw [← same (cs.length + 1) cs (Nat.lt_succ_self _)] at hread
    exact (h _).suffix hread
  lost {cs rest x} hread hshort := by
    rw [← same (cs.length + 1) cs (Nat.lt_succ_self _)] at hread
    exact (h _).lost hread hshort
  still {cs rest x} hread hshort := by
    rw [← same (cs.length + 1) cs (Nat.lt_succ_self _)] at hread
    exact (h _).still hread hshort
  course {ahead rest x} hahead hread := by
    let n := (ahead ++ swap.here).length + (ahead ++ swap.there).length + 1
    have hhere := same n (ahead ++ swap.here) (by omega)
    have hthere := same n (ahead ++ swap.there) (by omega)
    rw [← hhere] at hread
    exact ((h n).course hahead hread).of_same hthere.symm

end Course

end PongFixture.Toml

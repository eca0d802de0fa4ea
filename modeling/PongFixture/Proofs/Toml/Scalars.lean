import Mathlib.Data.Nat.Digits.Defs
import PongFixture.Proofs.Text.Numeral
import PongFixture.Toml.Document

/-!
# Texts and numbers read back

A text between double quotes is read back as it was, whatever its characters are: those that may
not stand for themselves are written by their eight hexadecimal digits. A whole number is read back
from its decimal digits. It must not run on into what follows, and it is neither a date nor a time
of day, since no hyphen and no colon comes after its digits.
-/

set_option autoImplicit false

namespace PongFixture.Toml

open Numeral

/-! ## Texts -/

/-- The digits of a character's code are hexadecimal ones. -/
theorem isDigit_codeDigits (c : Char) : ∀ d ∈ codeDigits c, isDigit 16 d = true := by
  intro d hd
  rcases List.mem_append.mp hd with hzero | hdigit
  · rw [(List.mem_replicate.mp hzero).2]
    rfl
  · exact isDigit_of_mem_digits (by decide) (by decide) _ d hdigit

/-- The code of a character has at most eight hexadecimal digits. -/
theorem toNat_lt (c : Char) : c.toNat < 16 ^ 8 := by
  have hvalid : c.toNat < 0xD800 ∨ 0xDFFF < c.toNat ∧ c.toNat < 0x110000 := c.valid
  omega

/-- The code of a character is written with eight digits. -/
theorem length_codeDigits (c : Char) : (codeDigits c).length = 8 := by
  have hlength : (hexadecimal c.toNat).length ≤ 8 :=
    Nat.toDigits_length 16 c.toNat 8 (by decide) (toNat_lt c)
  simp only [codeDigits, List.length_append, List.length_replicate]
  omega

/-- Leading zeros count for nothing. -/
theorem valueFrom_zeros (count : Nat) : valueFrom 16 0 (List.replicate count '0') = 0 := by
  induction count with
  | zero => rfl
  | succ count ih => exact ih

/-- The digits of a character's code denote it. -/
theorem value_codeDigits (c : Char) : value 16 (codeDigits c) = c.toNat := by
  show valueFrom 16 0 (List.replicate _ '0' ++ hexadecimal c.toNat) = c.toNat
  rw [valueFrom_append, valueFrom_zeros]
  exact value_digits (by decide) (by decide) c.toNat

/-- The digits of a numeric escape are read to their end. -/
theorem basicBody_code {ds : List Char} (digits : ∀ d ∈ ds, isDigit 16 d = true)
    (rest : List Char) {text : Char} :
    ∀ {more start : Nat}, ds.length = more + 1 → scalar? (valueFrom 16 start ds) = some text →
      basicBody (.code more start) (ds ++ rest) = withText [text] (basicBody .plain rest) := by
  induction ds with
  | nil => exact fun hlength => nomatch hlength
  | cons d ds ih =>
    intro more start hlength hscalar
    obtain ⟨worth, hworth⟩ : ∃ worth, digit? d = some worth := by
      have hd := digits d List.mem_cons_self
      unfold isDigit at hd
      split at hd
      · next worth hworth => exact ⟨worth, hworth⟩
      · cases hd
    have hvalue : valueFrom 16 start (d :: ds) = valueFrom 16 (start * 16 + worth) ds := by
      simp [valueFrom, hworth]
    rw [hvalue] at hscalar
    cases more with
    | zero =>
      obtain rfl : ds = [] := List.length_eq_zero_iff.mp (by simpa using hlength)
      have hlast : scalar? (start * 16 + worth) = some text := hscalar
      simp only [List.singleton_append, basicBody, hworth, hlast]
    | succ more =>
      have hrest := ih (fun d hd => digits d (List.mem_cons_of_mem _ hd))
        (by simpa using hlength) hscalar
      rw [List.cons_append, ← hrest]
      simp only [basicBody, hworth]

/-- One character is read back from how it is written. -/
theorem basicBody_writeChar (c : Char) (rest : List Char) :
    basicBody .plain (writeChar c ++ rest) = withText [c] (basicBody .plain rest) := by
  unfold writeChar
  split
  · next special =>
    rcases special with rfl | rfl <;> simp [basicBody, escapeOf?]
  · next other =>
    obtain ⟨noQuote, noBackslash⟩ := not_or.mp other
    split
    · next plain =>
      simp only [List.singleton_append, basicBody, if_neg noQuote, if_neg noBackslash, plain,
        if_true]
    · have hscalar : scalar? (valueFrom 16 0 (codeDigits c)) = some c := by
        have hvalid : c.toNat.isValidChar := c.valid
        show scalar? (value 16 (codeDigits c)) = some c
        rw [value_codeDigits, scalar?, if_pos hvalid, Char.ofNat_toNat]
      rw [← basicBody_code (isDigit_codeDigits c) rest (length_codeDigits c) hscalar]
      simp [basicBody, escapeOf?, codeLength?]

/-- The body of a text as it is written is read back. -/
theorem basicBody_writeText (text rest : List Char) :
    basicBody .plain (text.flatMap writeChar ++ '"' :: rest) = some (text, rest) := by
  induction text with
  | nil => simp [basicBody]
  | cons c text ih =>
    rw [List.flatMap_cons, List.append_assoc, basicBody_writeChar, ih]
    rfl

/-- A text as it is written is read back. -/
theorem readLineText_writeText (text rest : List Char) :
    readLineText (writeText text ++ rest) = some (text, rest) := by
  have hbody := basicBody_writeText text rest
  simpa [readLineText, writeText] using hbody

/-- How one character is written does not begin with a double quote. -/
theorem head?_writeChar (c : Char) : ∃ first later, writeChar c = first :: later ∧ first ≠ '"' := by
  unfold writeChar
  split
  · exact ⟨_, _, rfl, by decide⟩
  · next other =>
    split
    · exact ⟨_, _, rfl, (not_or.mp other).1⟩
    · exact ⟨_, _, rfl, by decide⟩

/-- A text is not taken for the beginning of one of several lines. -/
theorem readText_writeText (text : List Char) {rest : List Char} (ends : rest.head? ≠ some '"') :
    readText (writeText text ++ rest) = some (text, rest) := by
  rw [← readLineText_writeText text rest]
  unfold readText
  split
  · next body same =>
    cases text with
    | nil =>
      -- Both quotes of an empty text stand here, and no third one follows.
      obtain rfl : rest = '"' :: body := by simpa [writeText] using same
      exact absurd rfl ends
    | cons c text =>
      obtain ⟨first, later, hchar, hfirst⟩ := head?_writeChar c
      simp only [writeText, List.flatMap_cons, hchar, List.cons_append, List.cons.injEq] at same
      exact absurd same.2.1 hfirst
  · next body same =>
    simp only [writeText, List.cons_append, List.cons.injEq] at same
    exact absurd same.1 (by decide)
  · rfl

/-! ## Numbers -/

/-- What follows a value: a line end, a comma or a closing bracket of either kind, or nothing. -/
def EndsValue (rest : List Char) : Prop :=
  ∀ c ∈ rest.head?, c = '\n' ∨ c = ',' ∨ c = ']' ∨ c = '\x7d'

/-- A line feed, a comma and the closing brackets end a value. -/
theorem EndsValue.cons {c : Char} (h : c = '\n' ∨ c = ',' ∨ c = ']' ∨ c = '\x7d')
    (rest : List Char) : EndsValue (c :: rest) := by
  rintro _ ⟨⟩
  exact h

/-- What ends a value begins with no other character. -/
theorem EndsValue.head?_ne {rest : List Char} (ends : EndsValue rest) {c : Char}
    (h : c ≠ '\n' ∧ c ≠ ',' ∧ c ≠ ']' ∧ c ≠ '\x7d') : rest.head? ≠ some c := by
  intro same
  rcases ends c same with rfl | rfl | rfl | rfl <;> simp at h

/-- What ends a value ends a run of digits. -/
theorem EndsValue.endsDigits {rest : List Char} (ends : EndsValue rest) : EndsDigits 10 rest := by
  intro c hc
  rcases ends c hc with rfl | rfl | rfl | rfl <;> rfl

section Number

variable {rest : List Char}

/-- There are no digits where a value has ended. -/
theorem digitRun_of_ends (ends : EndsValue rest) (started : Bool) :
    digitRun 10 started rest = ([], rest) := by
  cases rest with
  | nil => rfl
  | cons c rest =>
    have hdigit : isDigit 10 c = false := ends.endsDigits c rfl
    have hunderscore : c ≠ '_' := fun same => ends.head?_ne (by decide) (congrArg some same)
    simp [digitRun, hdigit, hunderscore]

/-- Digits are read up to the end of a value. -/
theorem digitRun_digits {ds : List Char} (digits : ∀ d ∈ ds, isDigit 10 d = true)
    (ends : EndsValue rest) (started : Bool) :
    digitRun 10 started (ds ++ rest) = (ds, rest) := by
  induction ds generalizing started with
  | nil => exact digitRun_of_ends ends started
  | cons d ds ih =>
    have hd := digits d List.mem_cons_self
    have hrest := ih (fun d hd => digits d (List.mem_cons_of_mem _ hd)) true
    simp [digitRun, hd, hrest]

/-- A zero stands alone, and other numbers do not begin with one. -/
theorem readWhole_decimal (n : Nat) (ends : EndsValue rest) :
    readWhole (decimal n ++ rest) = some (decimal n, rest) := by
  by_cases hzero : n = 0
  · subst hzero
    rfl
  · have hhead : (decimal n).head? ≠ some '0' := head?_digits (by decide) (by decide) hzero
    have hdigits : ∀ d ∈ decimal n, isDigit 10 d = true :=
      isDigit_of_mem_digits (by decide) (by decide) n
    have hrun := digitRun_digits hdigits ends false
    obtain ⟨d, ds, hcons⟩ := List.exists_cons_of_ne_nil (digits_ne_nil n : digits 10 n ≠ [])
    rw [decimal, hcons] at hhead hrun ⊢
    unfold readWhole
    split
    · next same =>
      cases same
      exact absurd rfl hhead
    · rw [digits?, hrun]

/-- A group of digits of fixed length is followed by a digit or by the end of the value. -/
theorem head?_of_readFixed {count : Nat} {ds : List Char}
    (digits : ∀ d ∈ ds, isDigit 10 d = true) (ends : EndsValue rest) {found : Nat}
    {left : List Char} (h : readFixed count (ds ++ rest) = some (found, left)) :
    ∀ c ∈ left.head?, isDigit 10 c = true ∨ rest.head? = some c := by
  unfold readFixed at h
  simp only at h
  split at h
  · next hgroup =>
    cases h
    obtain ⟨hlength, hall⟩ := hgroup
    have hcount : count ≤ ds.length := by
      by_contra hshort
      -- The group would hold the character that ends the value, which is no digit.
      have hrest : rest ≠ [] := by
        rintro rfl
        simp at hlength
        omega
      obtain ⟨c, rest', rfl⟩ := List.exists_cons_of_ne_nil hrest
      have hmem : c ∈ (ds ++ c :: rest').take count := by
        rw [List.take_append]
        obtain ⟨more, hmore⟩ := Nat.exists_eq_add_of_lt (Nat.lt_of_not_le hshort)
        have hleft : count - ds.length = more + 1 := by omega
        rw [hleft]
        simp
      have hdigit : isDigit 10 c = true := List.all_eq_true.mp hall c hmem
      rw [ends.endsDigits c rfl] at hdigit
      cases hdigit
    intro c hc
    rw [List.drop_append_of_le_length hcount] at hc
    cases hdrop : ds.drop count with
    | nil =>
      rw [hdrop] at hc
      exact .inr hc
    | cons d later =>
      rw [hdrop] at hc
      cases hc
      exact .inl (digits c (List.mem_of_mem_drop (hdrop ▸ List.mem_cons_self)))
  · cases h

/-- A character is not there if another one is first. -/
theorem expect_of_head? {cs : List Char} {c : Char} (h : cs.head? ≠ some c) :
    expect c cs = none := by
  cases cs with
  | nil => rfl
  | cons d cs =>
    have hne : d ≠ c := fun same => h (congrArg some same)
    simp [expect, hne]

/-- Digits are the beginning of no date and of no time of day if neither a hyphen nor a colon
follows them. -/
theorem readMoment_digits {ds : List Char} (digits : ∀ d ∈ ds, isDigit 10 d = true)
    (ends : EndsValue rest) : readMoment (ds ++ rest) = none := by
  have hmark : ∀ {count found : Nat} {left : List Char} {mark : Char},
      readFixed count (ds ++ rest) = some (found, left) → isDigit 10 mark = false →
      (mark ≠ '\n' ∧ mark ≠ ',' ∧ mark ≠ ']' ∧ mark ≠ '\x7d') → expect mark left = none := by
    intro count found left mark hfixed hmark hother
    apply expect_of_head?
    intro same
    rcases head?_of_readFixed digits ends hfixed mark same with hdigit | hrest
    · rw [hmark] at hdigit
      cases hdigit
    · exact ends.head?_ne hother hrest
  have hdate : readDate (ds ++ rest) = none := by
    unfold readDate
    cases hfixed : readFixed 4 (ds ++ rest) with
    | none => rfl
    | some year =>
      have hnone : expect '-' year.2 = none := hmark hfixed rfl (by decide)
      simp [hnone]
  have htime : readHourMinute (ds ++ rest) = none := by
    unfold readHourMinute
    cases hwithin : readWithin 2 0 23 (ds ++ rest) with
    | none => rfl
    | some hour =>
      have hfixed := (Option.filter_eq_some_iff.mp hwithin).1
      have hnone : expect ':' hour.2 = none := hmark hfixed rfl (by decide)
      simp [hnone]
  simp [readMoment, hdate, readTime, htime]

/-- There is no fraction where a value has ended. -/
theorem readFraction_of_ends (ends : EndsValue rest) : readFraction rest = some (none, rest) := by
  unfold readFraction
  split
  · exact absurd rfl (ends.head?_ne (c := '.') (by decide))
  · rfl

/-- There is no exponent where a value has ended. -/
theorem readExponent_of_ends (ends : EndsValue rest) : readExponent rest = some (none, rest) := by
  cases rest with
  | nil => rfl
  | cons c rest =>
    have hlower : c ≠ 'e' := fun same => ends.head?_ne (by decide) (congrArg some same)
    have hupper : c ≠ 'E' := fun same => ends.head?_ne (by decide) (congrArg some same)
    simp [readExponent, hlower, hupper]

/-- A whole number that is not too large is read back from its decimal digits. -/
theorem readMagnitude_decimal {n : Nat} (bounded : n < integerBound) (ends : EndsValue rest) :
    readMagnitude none (decimal n ++ rest) = some (.integer n, rest) := by
  have hvalue : value 10 (decimal n) = n := value_digits (by decide) (by decide) n
  simp [readMagnitude, readWhole_decimal n ends, readFraction_of_ends ends,
    readExponent_of_ends ends, hvalue, integerOf?, bounded]

end Number

end PongFixture.Toml

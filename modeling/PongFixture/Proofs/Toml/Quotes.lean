import PongFixture.Toml.Document

/-!
# Readers that a quote stops

No number and no moment has a quote in it, and no blanks do. So what reads them comes to a quote at
the latest, and what it answers does not depend on anything behind that quote (`Stops`). This is so
also where a reader looks further than it reads, as one does that tries a time after a date and
leaves it be.

A reader that is put together from such readers is one itself. The lemmas follow the readers, from
the digits up.
-/

set_option autoImplicit false

namespace PongFixture.Toml

open Numeral

/-- A reader of something, which leaves what comes after it. -/
abbrev Reader (α : Type) := List Char → Option (α × List Char)

/-- A reader whose only result is what it leaves. -/
def bare (reader : List Char → Option (List Char)) : Reader Unit :=
  fun cs => (reader cs).map fun rest => ((), rest)

/-- A quote of either kind. -/
def IsQuote (c : Char) : Prop := c = '"' ∨ c = '\''

/-- A reader that stops at a quote: its answer in front of the quote is the same whatever comes
behind it, and leaves the quote. -/
structure Stops (quote : Char) {α : Type} (reader : Reader α) : Prop where
  suffix : ∀ {cs rest : List Char} {x : α}, reader cs = some (x, rest) → rest <:+ cs
  stops : ∀ ahead : List Char, ∃ answer : Option (α × List Char), ∀ behind,
    reader (ahead ++ quote :: behind) = answer.map fun r => (r.1, r.2 ++ quote :: behind)

section Stops

variable {quote : Char} {α β : Type} {reader : Reader α}

/-- Readers that give the same are stopped alike. -/
theorem Stops.congr {other : Reader α} (h : Stops quote reader)
    (same : ∀ cs, other cs = reader cs) : Stops quote other := by
  rwa [show other = reader from funext same]

/-- What is answered without reading. -/
theorem Stops.option (answer : Option α) : Stops quote fun cs => answer.map fun x => (x, cs) := by
  constructor
  · intro cs rest x h
    obtain ⟨_, -, same⟩ := Option.map_eq_some_iff.mp h
    cases same
    exact List.suffix_rfl
  · intro ahead
    refine ⟨answer.map fun x => (x, ahead), fun behind => ?_⟩
    rw [Option.map_map]
    rfl

/-- A value that is given without reading anything does not depend on what is behind a quote. -/
theorem Stops.pure (x : α) : Stops quote fun cs => some (x, cs) := .option (some x)

/-- What goes on after a reader goes on from a place that is in front of the quote too. -/
theorem Stops.bind (h : Stops quote reader) {next : α → Reader β}
    (hnext : ∀ x, Stops quote (next x)) :
    Stops quote fun cs => (reader cs).bind fun r => next r.1 r.2 := by
  constructor
  · intro cs rest y hread
    obtain ⟨⟨x, middle⟩, hfirst, hsecond⟩ := Option.bind_eq_some_iff.mp hread
    exact ((hnext x).suffix hsecond).trans (h.suffix hfirst)
  · intro ahead
    obtain ⟨answer, hanswer⟩ := h.stops ahead
    cases answer with
    | none => exact ⟨none, fun behind => by simp [hanswer]⟩
    | some found =>
      obtain ⟨last, hlast⟩ := (hnext found.1).stops found.2
      exact ⟨last, fun behind => by simp [hanswer, hlast]⟩

/-- A quote stops a reader whose answers are changed, if it stops the reader. -/
theorem Stops.map (h : Stops quote reader) (f : α → β) :
    Stops quote fun cs => (reader cs).map fun r => (f r.1, r.2) := by
  apply (h.bind fun x => Stops.pure (f x)).congr
  intro cs
  cases reader cs <;> rfl

/-- A quote stops a reader whose answers are tested, if it stops the reader. -/
theorem Stops.filter (h : Stops quote reader) (p : α → Bool) :
    Stops quote fun cs => (reader cs).filter fun r => p r.1 := by
  apply (h.bind fun x => Stops.option (if p x then some x else none)).congr
  intro cs
  cases hread : reader cs with
  | none => rfl
  | some r => cases hp : p r.1 <;> simp [Option.filter, hp]

/-- A reader that is tried first, and decides by whether it fails how to go on. -/
theorem Stops.ifReads (h : Stops quote reader) {next : α → Reader β}
    (hnext : ∀ x, Stops quote (next x)) {other : Reader β} (hother : Stops quote other) :
    Stops quote fun cs =>
      match reader cs with
      | some r => next r.1 r.2
      | none => other cs := by
  constructor
  · intro cs rest x hread
    split at hread
    · next hfirst => exact ((hnext _).suffix hread).trans (h.suffix hfirst)
    · exact hother.suffix hread
  · intro ahead
    obtain ⟨answer, hanswer⟩ := h.stops ahead
    cases answer with
    | none =>
      obtain ⟨last, hlast⟩ := hother.stops ahead
      exact ⟨last, fun behind => by simp [hanswer, hlast]⟩
    | some found =>
      obtain ⟨last, hlast⟩ := (hnext found.1).stops found.2
      exact ⟨last, fun behind => by simp [hanswer, hlast]⟩

/-- Reads one character of a class. -/
def charIf (p : Char → Bool) : Reader Char
  | [] => none
  | c :: cs => if p c then some (c, cs) else none

/-- A quote that fails the test stops the reader of a character. -/
theorem charIf_stops {p : Char → Bool} (h : p quote = false) : Stops quote (charIf p) := by
  constructor
  · intro cs rest x hread
    cases cs with
    | nil => cases hread
    | cons c cs =>
      cases hc : p c with
      | false => simp [charIf, hc] at hread
      | true =>
        simp only [charIf, hc, if_true, Option.some.injEq, Prod.mk.injEq] at hread
        rw [← hread.2]
        exact List.suffix_cons c cs
  · intro ahead
    cases ahead with
    | nil => exact ⟨none, fun behind => by simp [charIf, h]⟩
    | cons c ahead =>
      cases hc : p c with
      | false => exact ⟨none, fun behind => by simp [charIf, hc]⟩
      | true => exact ⟨some (c, ahead), fun behind => by simp [charIf, hc]⟩

end Stops

/-! ## Digits -/

section Digits

variable {quote : Char}

/-- A quote is no digit of any base. -/
theorem IsQuote.isDigit (h : IsQuote quote) (base : Nat) : isDigit base quote = false := by
  have hnone : digit? quote = none := by
    rcases h with rfl | rfl <;> decide
  simp [Numeral.isDigit, hnone]

/-- A quote differs from every character that is neither of the two quotes. -/
theorem IsQuote.ne (h : IsQuote quote) {c : Char} (hdouble : c ≠ '"') (hsingle : c ≠ '\'') :
    quote ≠ c := by
  rcases h with rfl | rfl
  · exact hdouble.symm
  · exact hsingle.symm

/-- A run of digits leaves the end of what it was given. -/
theorem digitRun_suffix (base : Nat) (started : Bool) (cs : List Char) :
    (digitRun base started cs).2 <:+ cs := by
  induction cs generalizing started with
  | nil => exact List.suffix_rfl
  | cons c cs ih =>
    unfold digitRun
    split
    · exact (ih true).trans (List.suffix_cons c cs)
    · split
      · exact (ih true).trans (List.suffix_cons c cs)
      · exact List.suffix_rfl

/-- The character that an underscore must be followed by is not behind the quote. -/
theorem digitRun_stops (h : IsQuote quote) (base : Nat) (started : Bool) (ahead : List Char) :
    ∃ ds rest, ∀ behind,
      digitRun base started (ahead ++ quote :: behind) = (ds, rest ++ quote :: behind) := by
  induction ahead generalizing started with
  | nil =>
    have hunderscore : quote ≠ '_' := h.ne (by decide) (by decide)
    exact ⟨[], [], fun behind => by simp [digitRun, h.isDigit, hunderscore]⟩
  | cons c ahead ih =>
    obtain ⟨ds, rest, hrest⟩ := ih true
    by_cases hdigit : isDigit base c = true
    · exact ⟨c :: ds, rest, fun behind => by simp [digitRun, hdigit, hrest]⟩
    · have hhead : ∀ behind, (ahead ++ quote :: behind).head? = (ahead ++ [quote]).head? := by
        intro behind
        cases ahead <;> rfl
      by_cases hgoes : started ∧ c = '_' ∧ (ahead ++ [quote]).head?.any (isDigit base) = true
      · refine ⟨ds, rest, fun behind => ?_⟩
        rw [List.cons_append, digitRun, if_neg hdigit, hhead, if_pos hgoes, hrest]
      · refine ⟨[], c :: ahead, fun behind => ?_⟩
        rw [List.cons_append, digitRun, if_neg hdigit, hhead, if_neg hgoes]

/-- A quote stops the reader of digits. -/
theorem digits?_stops (h : IsQuote quote) (base : Nat) : Stops quote (digits? base) := by
  constructor
  · intro cs rest ds hread
    have hsuffix := digitRun_suffix base false cs
    unfold digits? at hread
    split at hread
    · cases hread
    · next hrun =>
      cases hread
      rwa [hrun] at hsuffix
  · intro ahead
    obtain ⟨ds, rest, hrest⟩ := digitRun_stops h base false ahead
    cases ds with
    | nil => exact ⟨none, fun behind => by simp [digits?, hrest]⟩
    | cons d ds => exact ⟨some (d :: ds, rest), fun behind => by simp [digits?, hrest]⟩

end Digits

/-! ## Words -/

section Words

variable {quote : Char}

/-- A quote stops the reader of another character. -/
theorem expect_stops {c : Char} (hc : quote ≠ c) : Stops quote (bare (expect c)) := by
  have hclass : (quote == c) = false := beq_eq_false_iff_ne.mpr hc
  apply ((charIf_stops (p := fun d => d == c) hclass).map fun _ => ()).congr
  intro cs
  cases cs with
  | nil => rfl
  | cons d cs => by_cases hd : d = c <;> simp [bare, expect, charIf, hd]

/-- Two readers without results in a row leave what the second one leaves. -/
theorem bare_bind (first next : List Char → Option (List Char)) (cs : List Char) :
    bare (fun cs => (first cs).bind next) cs = (bare first cs).bind fun r => bare next r.2 := by
  cases h : first cs <;> simp [bare, h]

/-- A quote stops the reader of a word without it. -/
theorem expectWord_stops {word : List Char} (hword : ∀ c ∈ word, quote ≠ c) :
    Stops quote (bare (expectWord word)) := by
  induction word with
  | nil => exact .pure ()
  | cons c word ih =>
    obtain ⟨hc, hword⟩ := List.forall_mem_cons.mp hword
    exact ((expect_stops hc).bind fun _ => ih hword).congr (bare_bind (expect c) (expectWord word))

end Words

/-! ## Numbers -/

section Numbers

variable {quote : Char}

/-- A quote is not in a word without quotes. -/
theorem IsQuote.ne_of_mem (h : IsQuote quote) {word : List Char} (hdouble : '"' ∉ word)
    (hsingle : '\'' ∉ word) : ∀ c ∈ word, quote ≠ c := by
  rintro c hc rfl
  rcases h with rfl | rfl
  · exact hdouble hc
  · exact hsingle hc

/-- A quote stops the reader of a sign. -/
theorem readSign_stops (h : IsQuote quote) : Stops quote fun cs => some (readSign cs) := by
  have hplus : quote ≠ '+' := h.ne (by decide) (by decide)
  have hminus : quote ≠ '-' := h.ne (by decide) (by decide)
  have hread := (expect_stops hplus).ifReads (fun _ => .pure (some false))
    ((expect_stops hminus).ifReads (fun _ => .pure (some true)) (.pure none))
  apply hread.congr
  intro cs
  cases cs with
  | nil => rfl
  | cons c cs =>
    by_cases hc : c = '+'
    · simp [hc, readSign, bare, expect]
    · by_cases hd : c = '-' <;> simp [hc, hd, readSign, bare, expect]

/-- A quote stops the reader of a number in a base with a prefix. -/
theorem readBased_stops (h : IsQuote quote) (base : Nat) : Stops quote (readBased base) := by
  apply ((digits?_stops h base).bind fun ds => .option (integerOf? false (value base ds))).congr
  intro cs
  cases hdigits : digits? base cs with
  | none => simp [readBased, hdigits]
  | some r => cases hnumber : integerOf? false (value base r.1) <;> simp [readBased, hdigits, hnumber]

/-- A quote stops the reader of the digits before the point. -/
theorem readWhole_stops (h : IsQuote quote) : Stops quote readWhole := by
  have hzero : quote ≠ '0' := h.ne (by decide) (by decide)
  apply ((expect_stops hzero).ifReads (fun _ => .pure ['0']) (digits?_stops h 10)).congr
  intro cs
  cases cs with
  | nil => rfl
  | cons c cs => by_cases hc : c = '0' <;> simp [hc, readWhole, bare, expect]

/-- A quote stops the reader of a fraction. -/
theorem readFraction_stops (h : IsQuote quote) : Stops quote readFraction := by
  have hpoint : quote ≠ '.' := h.ne (by decide) (by decide)
  apply ((expect_stops hpoint).ifReads (fun _ => (digits?_stops h 10).map some) (.pure none)).congr
  intro cs
  cases cs with
  | nil => rfl
  | cons c cs => by_cases hc : c = '.' <;> simp [hc, readFraction, bare, expect]

/-- A quote stops the reader of an exponent. -/
theorem readExponent_stops (h : IsQuote quote) : Stops quote readExponent := by
  have hmark : (quote == 'e' || quote == 'E') = false := by
    simp [h.ne (c := 'e') (by decide) (by decide), h.ne (c := 'E') (by decide) (by decide)]
  have hmagnitude := fun sign : Option Bool => (digits?_stops h 10).map fun ds =>
    some (if sign = some true then -(value 10 ds : Int) else value 10 ds)
  apply ((charIf_stops (p := fun c => c == 'e' || c == 'E') hmark).ifReads
    (fun _ => (readSign_stops h).bind hmagnitude) (.pure none)).congr
  intro cs
  cases cs with
  | nil => rfl
  | cons c cs => by_cases hc : c = 'e' ∨ c = 'E' <;> simp [hc, readExponent, charIf]

/-- The number of its written parts: a whole one without a fraction and an exponent. -/
def numberOf? (negative : Bool) (whole : List Char) :
    Option (List Char) → Option Int → Option Number
  | none, none => integerOf? negative (value 10 whole)
  | fraction, exponent => realOf? negative whole (fraction.getD []) (exponent.getD 0)

/-- A quote stops the reader of a decimal number after its sign. -/
theorem readMagnitude_stops (h : IsQuote quote) (sign : Option Bool) :
    Stops quote (readMagnitude sign) := by
  have hread := (readWhole_stops h).bind fun whole => (readFraction_stops h).bind fun fraction =>
    (readExponent_stops h).bind fun exponent =>
      .option (numberOf? (sign == some true) whole fraction exponent)
  apply hread.congr
  intro cs
  unfold readMagnitude
  apply Option.bind_congr
  rintro ⟨whole, rest⟩ -
  apply Option.bind_congr
  rintro ⟨fraction, rest⟩ -
  apply Option.bind_congr
  rintro ⟨exponent, rest⟩ -
  cases fraction <;> cases exponent <;> exact Option.map_eq_bind.symm

/-- Reads what may follow a sign: the name of an infinity or of no number, or a magnitude. -/
def readUnsigned (sign : Option Bool) : Reader Number
  | 'i' :: cs => (expectWord ['n', 'f'] cs).map fun cs => (.real (.infinite (sign == some true)), cs)
  | 'n' :: cs => (expectWord ['a', 'n'] cs).map fun cs => (.real .nan, cs)
  | cs => readMagnitude sign cs

/-- A quote stops the reader of a number after its sign. -/
theorem readUnsigned_stops (h : IsQuote quote) (sign : Option Bool) :
    Stops quote (readUnsigned sign) := by
  have hinfinite : ∀ c ∈ ['n', 'f'], quote ≠ c := h.ne_of_mem (by decide) (by decide)
  have hnan : ∀ c ∈ ['a', 'n'], quote ≠ c := h.ne_of_mem (by decide) (by decide)
  have hread := (expect_stops (h.ne (c := 'i') (by decide) (by decide))).ifReads
    (fun _ => (expectWord_stops hinfinite).map fun _ => Number.real (.infinite (sign == some true)))
    ((expect_stops (h.ne (c := 'n') (by decide) (by decide))).ifReads
      (fun _ => (expectWord_stops hnan).map fun _ => Number.real .nan)
      (readMagnitude_stops h sign))
  apply hread.congr
  intro cs
  cases cs with
  | nil => rfl
  | cons c cs =>
    by_cases hc : c = 'i'
    · simp [hc, readUnsigned, bare, expect, Function.comp_def]
    · by_cases hd : c = 'n' <;> simp [hc, hd, readUnsigned, bare, expect, Function.comp_def]

/-- A word of two characters is not read where they are not next. -/
theorem expectWord_eq_none {c d : Char} {cs : List Char} (h : ∀ rest, cs ≠ c :: d :: rest) :
    expectWord [c, d] cs = none := by
  match cs with
  | [] => rfl
  | [a] => by_cases hc : a = c <;> simp [expectWord, expect, hc]
  | a :: b :: rest =>
    by_cases hc : a = c
    · have hd : b ≠ d := by
        rintro rfl
        exact h rest (by rw [hc])
      simp [expectWord, expect, hc, hd]
    · simp [expectWord, expect, hc]

/-- A quote stops the reader of a number. -/
theorem readNumber_stops (h : IsQuote quote) : Stops quote readNumber := by
  have hhex : ∀ c ∈ ['0', 'x'], quote ≠ c := h.ne_of_mem (by decide) (by decide)
  have hoctal : ∀ c ∈ ['0', 'o'], quote ≠ c := h.ne_of_mem (by decide) (by decide)
  have hbinary : ∀ c ∈ ['0', 'b'], quote ≠ c := h.ne_of_mem (by decide) (by decide)
  have hsigned := (readSign_stops h).bind (readUnsigned_stops h)
  have hread := (expectWord_stops hhex).ifReads (fun _ => readBased_stops h 16)
    ((expectWord_stops hoctal).ifReads (fun _ => readBased_stops h 8)
      ((expectWord_stops hbinary).ifReads (fun _ => readBased_stops h 2) hsigned))
  apply hread.congr
  intro cs
  unfold readNumber
  split
  · simp [bare, expectWord, expect]
  · simp [bare, expectWord, expect]
  · simp [bare, expectWord, expect]
  · next hx ho hb =>
    simp only [bare, expectWord_eq_none hx, expectWord_eq_none ho, expectWord_eq_none hb,
      Option.map_none, Option.bind_some]
    unfold readUnsigned
    split <;> simp [expectWord, expect, *]

end Numbers

/-! ## Moments -/

section Moments

variable {quote : Char}

/-- A quote stops the reader of so many digits. -/
theorem readFixed_stops (h : IsQuote quote) (count : Nat) : Stops quote (readFixed count) := by
  constructor
  · intro cs rest x hread
    simp only [readFixed] at hread
    split at hread
    · cases hread
      exact List.drop_suffix count cs
    · cases hread
  · intro ahead
    by_cases hlong : count ≤ ahead.length
    · have htake : ∀ behind, (ahead ++ quote :: behind).take count = ahead.take count :=
        fun behind => List.take_append_of_le_length hlong
      have hdrop : ∀ behind,
          (ahead ++ quote :: behind).drop count = ahead.drop count ++ quote :: behind :=
        fun behind => List.drop_append_of_le_length hlong
      refine ⟨readFixed count ahead, fun behind => ?_⟩
      simp only [readFixed, htake, hdrop]
      split <;> rfl
    -- Not so many characters come before the quote, so it would have to be one of the digits.
    · refine ⟨none, fun behind => ?_⟩
      have hmem : quote ∈ (ahead ++ quote :: behind).take count := by
        rw [List.take_append, List.mem_append]
        right
        obtain ⟨n, hn⟩ : ∃ n, count - ahead.length = n + 1 := ⟨count - ahead.length - 1, by omega⟩
        rw [hn, List.take_succ_cons]
        exact List.mem_cons_self
      simp only [readFixed, Option.map_none, ite_eq_right_iff, reduceCtorEq, imp_false, not_and]
      intro _ hall
      have hdigit := List.all_eq_true.mp hall quote hmem
      rw [h.isDigit] at hdigit
      cases hdigit

/-- A quote stops the reader of so many digits within bounds. -/
theorem readWithin_stops (h : IsQuote quote) (count low high : Nat) :
    Stops quote (readWithin count low high) :=
  (readFixed_stops h count).filter fun n => low ≤ n && n ≤ high

/-- A quote stops the reader of a date. -/
theorem readDate_stops (h : IsQuote quote) : Stops quote (bare readDate) := by
  have hdash := expect_stops (h.ne (c := '-') (by decide) (by decide))
  have hread := (readFixed_stops h 4).bind fun year => hdash.bind fun _ =>
    (readWithin_stops h 2 1 12).bind fun month => hdash.bind fun _ =>
      (readWithin_stops h 2 1 (daysIn year month)).map fun _ => ()
  apply hread.congr
  intro cs
  simp only [bare, readDate, Option.bind_eq_bind, Option.map_bind, Option.bind_map,
    Function.comp_def]
  simp only [Option.map_eq_bind, Function.comp_def]
  rfl

/-- A quote stops the reader of an hour and a minute. -/
theorem readHourMinute_stops (h : IsQuote quote) : Stops quote (bare readHourMinute) := by
  have hread := (readWithin_stops h 2 0 23).bind fun _ =>
    (expect_stops (h.ne (c := ':') (by decide) (by decide))).bind fun _ =>
      (readWithin_stops h 2 0 59).map fun _ => ()
  apply hread.congr
  intro cs
  simp only [bare, readHourMinute, Option.bind_eq_bind, Option.map_bind, Option.bind_map,
    Function.comp_def]
  simp only [Option.map_eq_bind, Function.comp_def]
  rfl

/-- A quote that is not skipped stops what skips characters. -/
theorem dropWhile_stops {p : Char → Bool} (hp : p quote = false) :
    Stops quote fun cs => some ((), cs.dropWhile p) := by
  constructor
  · intro cs rest x h
    cases h
    exact List.dropWhile_suffix p
  · intro ahead
    refine ⟨some ((), ahead.dropWhile p), fun behind => ?_⟩
    rw [List.dropWhile_append]
    split
    · next hempty => simp [List.isEmpty_iff.mp hempty, hp]
    · rfl

/-- A quote stops what skips the fraction of a second. -/
theorem skipSecondFraction_stops (h : IsQuote quote) :
    Stops quote fun cs => some ((), skipSecondFraction cs) := by
  have hread := ((expect_stops (h.ne (c := '.') (by decide) (by decide))).bind
    fun _ => charIf_stops (h.isDigit 10)).ifReads
      (fun _ => dropWhile_stops (h.isDigit 10)) (.pure ())
  apply hread.congr
  intro cs
  match cs with
  | [] => rfl
  | [c] => by_cases hc : c = '.' <;> simp [hc, skipSecondFraction, bare, expect, charIf]
  | c :: d :: cs =>
    by_cases hc : c = '.'
    · cases hd : isDigit 10 d <;> simp [hc, hd, skipSecondFraction, bare, expect, charIf]
    · simp [hc, skipSecondFraction, bare, expect]

/-- A quote stops the reader of a time of day. -/
theorem readTime_stops (h : IsQuote quote) : Stops quote (bare readTime) := by
  have hread := (readHourMinute_stops h).bind fun _ =>
    (expect_stops (h.ne (c := ':') (by decide) (by decide))).bind fun _ =>
      (readWithin_stops h 2 0 60).bind fun _ => skipSecondFraction_stops h
  apply hread.congr
  intro cs
  simp only [bare, readTime, Option.bind_eq_bind, Option.map_bind, Option.bind_map,
    Function.comp_def]
  rfl

/-- A quote stops the reader of an offset. -/
theorem readOffset_stops (h : IsQuote quote) : Stops quote (bare readOffset) := by
  have hutc : (quote == 'Z' || quote == 'z') = false := by
    simp [h.ne (c := 'Z') (by decide) (by decide), h.ne (c := 'z') (by decide) (by decide)]
  have hsign : (quote == '+' || quote == '-') = false := by
    simp [h.ne (c := '+') (by decide) (by decide), h.ne (c := '-') (by decide) (by decide)]
  have hread := (charIf_stops (p := fun c => c == 'Z' || c == 'z') hutc).ifReads
    (fun _ => .pure ()) ((charIf_stops (p := fun c => c == '+' || c == '-') hsign).ifReads
      (fun _ => readHourMinute_stops h) (.pure ()))
  apply hread.congr
  intro cs
  cases cs with
  | nil => rfl
  | cons c cs =>
    by_cases hc : c = 'Z' ∨ c = 'z'
    · simp [hc, bare, readOffset, charIf]
    · by_cases hd : c = '+' ∨ c = '-' <;> simp [hc, hd, bare, readOffset, charIf]

/-- A time that is tried after a date, and left where it is none, is decided before the quote. -/
theorem readTimeOfDate_stops (h : IsQuote quote) : Stops quote (bare readTimeOfDate) := by
  have hmark : (quote == 'T' || quote == 't' || quote == ' ') = false := by
    simp [h.ne (c := 'T') (by decide) (by decide), h.ne (c := 't') (by decide) (by decide),
      h.ne (c := ' ') (by decide) (by decide)]
  have hread := ((charIf_stops (p := fun c => c == 'T' || c == 't' || c == ' ') hmark).bind
    fun _ => readTime_stops h).ifReads (fun _ => readOffset_stops h) (.pure ())
  apply hread.congr
  intro cs
  cases cs with
  | nil => rfl
  | cons c cs =>
    by_cases hc : c = 'T' ∨ c = 't' ∨ c = ' '
    · cases htime : readTime cs <;> simp [hc, htime, or_assoc, bare, readTimeOfDate, charIf]
    · simp [hc, or_assoc, bare, readTimeOfDate, charIf]

/-- A quote stops the reader of a moment. -/
theorem readMoment_stops (h : IsQuote quote) : Stops quote (bare readMoment) := by
  have hread := (readDate_stops h).ifReads (fun _ => readTimeOfDate_stops h) (readTime_stops h)
  apply hread.congr
  intro cs
  cases hdate : readDate cs <;> simp [hdate, bare, readMoment]

end Moments

end PongFixture.Toml

import PongFixture.Proofs.Text.Numeral
import PongFixture.Proofs.Toml.Replaced

/-!
# What a complaint shows of a document with another text in the place of one

A complaint shows the line on which a stretch begins. If that is not the line of the replaced text, it
is the same in both documents, and so are its number, the column and the carets
(`Excerpt.of_replaced_elsewhere`). If it is the line of the text, then the text is shown, and as only
that differs, two complaints say the same only if the texts are the same (`Excerpt.print_eq_iff`).

The carets need an argument where a stretch goes over the text from an earlier line on. Their number is
that of the octets of the stretch, which has changed, but bounded by what is left of the line where the
stretch begins. Such a stretch begins with a header, so that only blanks are before it and the bound is
met in both documents.
-/

set_option autoImplicit false

namespace PongFixture.Toml

/-! ## Lines -/

/-- What a text has on its first line. -/
def firstLine (text : List Char) : List Char := text.takeWhile (· != '\n')

/-- What a text has on its last line. -/
def lastLine (text : List Char) : List Char := (firstLine text.reverse).reverse

/-- The first line has no line feed. -/
theorem newline_notMem_firstLine (text : List Char) : '\n' ∉ firstLine text := by
  intro h
  have hline := List.all_eq_true.mp List.all_takeWhile _ h
  simp at hline

/-- The last line has no line feed. -/
theorem newline_notMem_lastLine (text : List Char) : '\n' ∉ lastLine text := by
  unfold lastLine
  rw [List.mem_reverse]
  exact newline_notMem_firstLine _

/-- A text without a line feed is on the first line with what begins the rest. -/
theorem firstLine_append_of_notMem {text : List Char} (h : '\n' ∉ text) (rest : List Char) :
    firstLine (text ++ rest) = text ++ firstLine rest := by
  apply List.takeWhile_append_of_pos
  intro c hc
  exact bne_iff_ne.mpr fun same => h (same ▸ hc)

/-- What comes after a line feed is not on the first line. -/
theorem firstLine_append_of_mem {text : List Char} (h : '\n' ∈ text) (rest : List Char) :
    firstLine (text ++ rest) = firstLine text := by
  induction text with
  | nil => cases h
  | cons c text ih =>
    by_cases hc : c = '\n'
    · simp [firstLine, hc]
    · have hlater := ih ((List.mem_cons.mp h).resolve_left fun same => hc same.symm)
      simpa [firstLine, hc] using hlater

/-- A text without a line feed is on the last line with what ends the front. -/
theorem lastLine_append_of_notMem {text : List Char} (h : '\n' ∉ text) (front : List Char) :
    lastLine (front ++ text) = lastLine front ++ text := by
  unfold lastLine
  rw [List.reverse_append, firstLine_append_of_notMem (by simpa using h), List.reverse_append,
    List.reverse_reverse]

/-- What comes before a line feed is not on the last line. -/
theorem lastLine_append_of_mem {text : List Char} (h : '\n' ∈ text) (front : List Char) :
    lastLine (front ++ text) = lastLine text := by
  unfold lastLine
  rw [List.reverse_append, firstLine_append_of_mem (by simpa using h)]

/-- A line feed comes after the first line, if there is one at all. -/
theorem newline_after_firstLine {text : List Char} (h : '\n' ∈ text) :
    firstLine text ++ ['\n'] <+: text := by
  induction text with
  | nil => cases h
  | cons c text ih =>
    by_cases hc : c = '\n'
    · exact ⟨text, by simp [firstLine, hc]⟩
    · have hlater := ih ((List.mem_cons.mp h).resolve_left fun same => hc same.symm)
      simpa [firstLine, hc] using hlater

/-! ## Octets -/

/-- The octets of two texts add up. -/
theorem octets_append (first second : List Char) :
    octets (first ++ second) = octets first + octets second := by
  simp [octets, Utf8.encode]

/-- A text has at least the octets of its beginning. -/
theorem octets_le_of_prefix {part whole : List Char} (h : part <+: whole) :
    octets part ≤ octets whole := by
  obtain ⟨rest, rfl⟩ := h
  rw [octets_append]
  exact Nat.le_add_right _ _

/-- Each blank is one octet. -/
theorem octets_blanks {blanks : List Char} (h : ∀ c ∈ blanks, isSpace c = true) :
    octets blanks = blanks.length := by
  induction blanks with
  | nil => rfl
  | cons c blanks ih =>
    have hone : octets [c] = 1 := by
      rcases (by simpa [isSpace] using h c List.mem_cons_self : c = ' ' ∨ c = '\t') with rfl | rfl <;>
        rfl
    rw [← List.singleton_append, octets_append, hone,
      ih fun c hc => h c (List.mem_cons_of_mem _ hc), List.length_append]
    rfl

/-! ## Places -/

namespace Swap

variable {swap : Swap}

/-- The line that the text is on. -/
def line (swap : Swap) : Nat := swap.before.count '\n' + 1

/-- The line of the text is counted from the line feeds before it, in any two parts. -/
theorem line_eq {front ahead : List Char} (before : swap.before = front ++ ahead) :
    swap.line = front.count '\n' + ahead.count '\n' + 1 := by
  rw [line, before, List.count_append]

/-- A stretch that a complaint may be about: it neither begins nor ends within the text, and if it goes
over the text, only blanks are before it on its line. -/
structure Regular (swap : Swap) (extent : Extent) : Prop where
  clear : swap.Clear extent
  blank : swap.Spans extent → BlankBefore (swap.before ++ swap.here) extent.start

/-- A complaint may be about what lies beside the text. -/
theorem Beside.regular {extent : Extent} (beside : swap.Beside extent) : swap.Regular extent :=
  ⟨beside.1, fun spans => absurd spans beside.2⟩

/-- A place that is not within the text is before it, in what comes before, or behind it, in what
comes after. -/
theorem Outside.cases {place : Nat} (h : swap.Outside place) :
    (∃ front ahead, swap.before = front ++ ahead ∧ place = (ahead ++ swap.here).length) ∨
      ∃ skipped rest, swap.after = skipped ++ rest ∧ place = rest.length := by
  rcases h with ⟨ahead, rfl, hahead⟩ | hplace
  · left
    refine ⟨swap.before.take (swap.before.length - ahead.length),
      swap.before.drop (swap.before.length - ahead.length), (List.take_append_drop _ _).symm, ?_⟩
    simp only [List.length_append, List.length_drop]
    omega
  · right
    refine ⟨swap.after.take (swap.after.length - place), swap.after.drop (swap.after.length - place),
      (List.take_append_drop _ _).symm, ?_⟩
    rw [List.length_drop]
    omega

/-- The text begins with its quote, and what comes after it follows. -/
theorem here_eq (swap : Swap) : swap.here = swap.quote :: swap.old ++ swap.after := rfl

/-- The other text begins with the same quote, and the same follows. -/
theorem there_eq (swap : Swap) : swap.there = swap.quote :: swap.new ++ swap.after := rfl

/-- Where the text is replaced by itself, nothing moves. -/
theorem moveExtent_eq (same : swap.there = swap.here) (extent : Extent) :
    swap.moveExtent extent = extent := by
  have hmove : ∀ place, swap.move place = place := by
    intro place
    unfold move
    split
    · rw [same]
      omega
    · rfl
  simp only [moveExtent, hmove]

/-- The text is on one line. -/
theorem newline_notMem_old (swap : Swap) : '\n' ∉ swap.quote :: swap.old := by
  have hquote : '\n' ≠ swap.quote := by rcases swap.isQuote with h | h <;> rw [h] <;> decide
  simp [hquote, swap.oldLine]

/-- The other text is on one line. -/
theorem newline_notMem_new (swap : Swap) : '\n' ∉ swap.quote :: swap.new := by
  have hquote : '\n' ≠ swap.quote := by rcases swap.isQuote with h | h <;> rw [h] <;> decide
  simp [hquote, swap.newLine]

end Swap

/-- Only blanks, and perhaps the mark that may begin a document, are before such a place on its
line. -/
theorem BlankBefore.octets_le {front rest : List Char}
    (h : BlankBefore (front ++ rest) rest.length) :
    octets (lastLine front) ≤ (lastLine front).length + 2 := by
  obtain ⟨cs, blanks, rest', hline, rfl, hlength, hblanks⟩ := h
  have hnewline : '\n' ∉ blanks := fun hmem => by
    have hspace := hblanks _ hmem
    revert hspace
    decide
  have hfront : ∀ start : List Char, front ++ rest = start ++ (blanks ++ rest') →
      octets (lastLine start) ≤ (lastLine start).length + 2 →
      octets (lastLine front) ≤ (lastLine front).length + 2 := by
    intro start same hstart
    rw [← List.append_assoc] at same
    rw [(List.append_inj' same hlength.symm).1, lastLine_append_of_notMem hnewline, octets_append,
      octets_blanks hblanks, List.length_append]
    omega
  rcases hline with same | same | ⟨lines, same⟩
  · exact hfront [] same (by decide)
  · exact hfront [byteOrderMark] same (by decide)
  · refine hfront (lines ++ ['\n']) (by simpa using same) ?_
    rw [lastLine_append_of_mem (List.mem_singleton_self _)]
    decide

/-! ## Excerpts -/

namespace Excerpt

/-- The excerpt for a stretch that begins where a text is divided. -/
theorem of_append (front rest : List Char) (stop : Nat) :
    of (front ++ rest) ⟨rest.length, stop⟩ =
      { line := front.count '\n' + 1
        column := (lastLine front).length + 1
        content := lastLine front ++ firstLine rest
        carets := max 1 (min (octets (rest.take (rest.length - stop)))
          (octets (lastLine front ++ firstLine rest) - (lastLine front).length)) } := by
  have hlength : (front ++ rest).length - rest.length = front.length := by
    rw [List.length_append]
    omega
  simp only [of, hlength, List.take_left, List.drop_left]
  rfl

section Replaced

variable {swap : Swap}

/-- The excerpt for a stretch that begins before the text, with something in the place of it and of what
comes after it. -/
theorem of_ahead {front ahead : List Char} (before : swap.before = front ++ ahead) (rest : List Char)
    (stop : Nat) :
    of (swap.before ++ rest) ⟨(ahead ++ rest).length, stop⟩ =
      { line := front.count '\n' + 1
        column := (lastLine front).length + 1
        content := lastLine front ++ firstLine (ahead ++ rest)
        carets := max 1 (min (octets ((ahead ++ rest).take ((ahead ++ rest).length - stop)))
          (octets (lastLine front ++ firstLine (ahead ++ rest)) - (lastLine front).length)) } := by
  rw [before, List.append_assoc, of_append]

/-- The excerpt for a stretch that begins after the text, with something on one line in the place of
it. -/
theorem of_past {skipped rest : List Char} (after : swap.after = skipped ++ rest) {middle : List Char}
    (line : '\n' ∉ middle) (stop : Nat) :
    of (swap.before ++ (middle ++ swap.after)) ⟨rest.length, stop⟩ =
      { line := swap.line + skipped.count '\n'
        column := (lastLine (swap.before ++ middle ++ skipped)).length + 1
        content := lastLine (swap.before ++ middle ++ skipped) ++ firstLine rest
        carets := max 1 (min (octets (rest.take (rest.length - stop)))
          (octets (lastLine (swap.before ++ middle ++ skipped) ++ firstLine rest) -
            (lastLine (swap.before ++ middle ++ skipped)).length)) } := by
  have hcount : (swap.before ++ middle ++ skipped).count '\n' + 1 =
      swap.line + skipped.count '\n' := by
    rw [List.count_append, List.count_append, List.count_eq_zero.mpr line, Swap.line]
    omega
  rw [after, ← List.append_assoc, ← List.append_assoc, of_append, hcount]

/-- A stretch that goes over the text from an earlier line on has more octets than are left of the line
where it begins. -/
theorem carets_over {front ahead rest : List Char} {n : Nat} (newline : '\n' ∈ ahead)
    (blank : octets (lastLine front) ≤ (lastLine front).length + 2) (hn : ahead.length < n)
    (hrest : rest ≠ []) :
    min (octets ((ahead ++ rest).take n)) (octets (lastLine front ++ firstLine ahead) -
        (lastLine front).length) =
      octets (lastLine front ++ firstLine ahead) - (lastLine front).length := by
  obtain ⟨c, rest, rfl⟩ := List.exists_cons_of_ne_nil hrest
  have hahead : octets (firstLine ahead) + octets ['\n'] ≤ octets ahead := by
    rw [← octets_append]
    exact octets_le_of_prefix (newline_after_firstLine newline)
  have htaken : ahead ++ [c] <+: (ahead ++ c :: rest).take n := by
    rw [List.prefix_take_iff]
    refine ⟨⟨rest, by simp⟩, ?_⟩
    rw [List.length_append, List.length_singleton]
    exact hn
  have hstretch := octets_le_of_prefix htaken
  have hnewline : octets ['\n'] = 1 := rfl
  have hc : 0 < octets [c] := by
    simpa [octets, Utf8.encode] using Char.utf8Size_pos c
  rw [octets_append] at hstretch ⊢
  omega

/-- The excerpt for a stretch that begins on an earlier line than the text. -/
theorem of_replaced_ahead {front ahead : List Char} {stop : Nat}
    (before : swap.before = front ++ ahead) (newline : '\n' ∈ ahead)
    (regular : swap.Regular ⟨(ahead ++ swap.here).length, stop⟩) :
    of (swap.before ++ swap.there) (swap.moveExtent ⟨(ahead ++ swap.here).length, stop⟩) =
      of (swap.before ++ swap.here) ⟨(ahead ++ swap.here).length, stop⟩ := by
  have hcarets : ∀ bound, bound = octets (lastLine front ++ firstLine ahead) - (lastLine front).length →
      min (octets ((ahead ++ swap.there).take ((ahead ++ swap.there).length - swap.move stop))) bound =
        min (octets ((ahead ++ swap.here).take ((ahead ++ swap.here).length - stop))) bound := by
    rintro bound rfl
    rcases regular.clear.2 with ⟨left, same, -⟩ | hstop
    · simp only at same
      subst same
      have hlength : ∀ rest : List Char, (ahead ++ rest).length - (left ++ rest).length =
          ahead.length - left.length := by
        intro rest
        simp only [List.length_append]
        omega
      rw [swap.move_ahead, hlength, hlength, List.take_append_of_le_length (Nat.sub_le _ _),
        List.take_append_of_le_length (Nat.sub_le _ _)]
    · have hhere := swap.length_after_lt_here
      have hthere := swap.length_after_lt_there
      simp only at hstop
      have hspans : swap.Spans ⟨(ahead ++ swap.here).length, stop⟩ :=
        ⟨by simp only [List.length_append]; omega, hstop⟩
      have hblank := regular.blank hspans
      rw [before, List.append_assoc] at hblank
      have hover : ∀ rest : List Char, swap.after.length < rest.length →
          min (octets ((ahead ++ rest).take ((ahead ++ rest).length - stop)))
              (octets (lastLine front ++ firstLine ahead) - (lastLine front).length) =
            octets (lastLine front ++ firstLine ahead) - (lastLine front).length := by
        intro rest hrest
        apply carets_over newline hblank.octets_le
        · rw [List.length_append]
          omega
        · exact List.ne_nil_of_length_pos (by omega)
      rw [swap.move_past hstop, hover _ hthere, hover _ hhere]
  simp only [Swap.moveExtent, swap.move_ahead]
  rw [of_ahead before, of_ahead before, firstLine_append_of_mem newline,
    firstLine_append_of_mem newline, hcarets _ rfl]

/-- The excerpt for a stretch that begins on a later line than the text. -/
theorem of_replaced_past {skipped rest : List Char} {stop : Nat}
    (after : swap.after = skipped ++ rest) (newline : '\n' ∈ skipped)
    (regular : swap.Regular ⟨rest.length, stop⟩) :
    of (swap.before ++ swap.there) (swap.moveExtent ⟨rest.length, stop⟩) =
      of (swap.before ++ swap.here) ⟨rest.length, stop⟩ := by
  have hrest : rest.length ≤ swap.after.length := by
    rw [after, List.length_append]
    omega
  have hstop : rest.length - swap.move stop = rest.length - stop := by
    rcases regular.clear.2 with ⟨left, same, -⟩ | hstop
    · have hhere := swap.length_after_lt_here
      have hthere := swap.length_after_lt_there
      simp only at same
      rw [same, swap.move_ahead]
      simp only [List.length_append]
      omega
    · rw [swap.move_past hstop]
  simp only [Swap.moveExtent, swap.move_past hrest, swap.there_eq, swap.here_eq]
  rw [of_past after swap.newline_notMem_new, of_past after swap.newline_notMem_old, hstop,
    lastLine_append_of_mem newline, lastLine_append_of_mem newline]

/-- The excerpt for a stretch that begins on another line than the text. -/
theorem of_replaced_elsewhere {extent : Extent} (regular : swap.Regular extent)
    (elsewhere : (of (swap.before ++ swap.here) extent).line ≠ swap.line) :
    of (swap.before ++ swap.there) (swap.moveExtent extent) =
      of (swap.before ++ swap.here) extent := by
  obtain ⟨start, stop⟩ := extent
  rcases regular.clear.1.cases with ⟨front, ahead, before, rfl⟩ | ⟨skipped, rest, after, rfl⟩
  · apply of_replaced_ahead before _ regular
    by_contra hnone
    rw [of_ahead before, Swap.line_eq before, List.count_eq_zero.mpr hnone] at elsewhere
    exact elsewhere rfl
  · apply of_replaced_past after _ regular
    by_contra hnone
    rw [swap.here_eq, of_past after swap.newline_notMem_old, List.count_eq_zero.mpr hnone]
      at elsewhere
    exact elsewhere rfl

/-- The excerpt for a stretch that begins on the line of the text shows the text. -/
theorem of_replaced_line {extent : Extent} (regular : swap.Regular extent)
    (line : (of (swap.before ++ swap.here) extent).line = swap.line) :
    (of (swap.before ++ swap.there) (swap.moveExtent extent)).line = swap.line ∧
      ∃ left right,
        (of (swap.before ++ swap.here) extent).content = left ++ swap.quote :: swap.old ++ right ∧
        (of (swap.before ++ swap.there) (swap.moveExtent extent)).content =
          left ++ swap.quote :: swap.new ++ right := by
  obtain ⟨start, stop⟩ := extent
  rcases regular.clear.1.cases with ⟨front, ahead, before, rfl⟩ | ⟨skipped, rest, after, rfl⟩
  · simp only [Swap.moveExtent, swap.move_ahead]
    rw [of_ahead before, Swap.line_eq before] at line
    have hnone : '\n' ∉ ahead := List.count_eq_zero.mp (by simp only at line; omega)
    rw [of_ahead before, of_ahead before]
    refine ⟨line.trans (Swap.line_eq before).symm, lastLine front ++ ahead, firstLine swap.after, ?_, ?_⟩
    · rw [firstLine_append_of_notMem hnone, swap.here_eq,
        firstLine_append_of_notMem swap.newline_notMem_old]
      simp only [List.append_assoc]
    · rw [firstLine_append_of_notMem hnone, swap.there_eq,
        firstLine_append_of_notMem swap.newline_notMem_new]
      simp only [List.append_assoc]
  · have hrest : rest.length ≤ swap.after.length := by
      rw [after, List.length_append]
      omega
    simp only [Swap.moveExtent, swap.move_past hrest, swap.here_eq, swap.there_eq]
    rw [swap.here_eq, of_past after swap.newline_notMem_old] at line
    have hnone : '\n' ∉ skipped := List.count_eq_zero.mp (by simp only at line; omega)
    rw [of_past after swap.newline_notMem_old, of_past after swap.newline_notMem_new]
    refine ⟨line, lastLine swap.before, skipped ++ firstLine rest, ?_, ?_⟩
    · rw [lastLine_append_of_notMem hnone, lastLine_append_of_notMem swap.newline_notMem_old]
      simp only [List.append_assoc]
    · rw [lastLine_append_of_notMem hnone, lastLine_append_of_notMem swap.newline_notMem_new]
      simp only [List.append_assoc]

end Replaced

/-! ## Complaints -/

/-- The digits of a number have no line feed. -/
theorem newline_notMem_toString (n : Nat) : '\n' ∉ (toString n).toList := by
  intro h
  have hdigits : (toString n).toList = Numeral.digits 10 n := String.toList_ofList
  rw [hdigits] at h
  have hdigit := Numeral.isDigit_of_mem_digits (by decide) (by decide) n _ h
  revert hdigit
  decide

/-- A text is divided at its first line feed in one way only. -/
theorem append_newline_inj {one other rest rest' : List Char} (hone : '\n' ∉ one)
    (hother : '\n' ∉ other) (same : one ++ '\n' :: rest = other ++ '\n' :: rest') :
    one = other ∧ rest = rest' := by
  have hline : ∀ {line : List Char} (later : List Char), '\n' ∉ line →
      firstLine (line ++ '\n' :: later) = line := by
    intro line later hline
    rw [firstLine_append_of_notMem hline]
    exact List.append_nil line
  have hsame : one = other := by
    rw [← hline rest hone, same, hline rest' hother]
  rw [hsame, List.append_cancel_left_eq, List.cons_inj_right] at same
  exact ⟨hsame, same⟩

/-- A complaint in its lines. The third shows a line of the document. -/
theorem print_lines (excerpt : Excerpt) (reason : String) :
    ∃ heading rest, '\n' ∉ heading ∧ (excerpt.print reason).toList =
      heading ++ '\n' :: (excerpt.margin ++ '\n' ::
        ((toString excerpt.line).toList ++ (" | ".toList ++ (excerpt.content ++ '\n' :: rest)))) := by
  refine ⟨"TOML parse error at line ".toList ++ ((toString excerpt.line).toList ++
      (", column ".toList ++ (toString excerpt.column).toList)),
    excerpt.margin ++ (List.replicate excerpt.column ' ' ++ (List.replicate excerpt.carets '^' ++
      '\n' :: (reason.toList ++ ['\n']))), ?_, ?_⟩
  · have hline := newline_notMem_toString excerpt.line
    have hcolumn := newline_notMem_toString excerpt.column
    have hwords : '\n' ∉ "TOML parse error at line ".toList ∧ '\n' ∉ ", column ".toList := by decide
    simp only [List.mem_append, not_or]
    exact ⟨hwords.1, hline, hwords.2, hcolumn⟩
  · have hnewline : "\n".toList = ['\n'] := rfl
    unfold print
    simp only [String.toList_append, String.toList_ofList, List.append_assoc, hnewline,
      List.cons_append, List.nil_append]

/-- Complaints that say the same show the same line, if its number is the same. -/
theorem content_of_print {one other : Excerpt} {reason reason' : String}
    (line : one.line = other.line) (hone : '\n' ∉ one.content) (hother : '\n' ∉ other.content)
    (same : one.print reason = other.print reason') : one.content = other.content := by
  obtain ⟨heading, rest, hheading, hprint⟩ := print_lines one reason
  obtain ⟨heading', rest', hheading', hprint'⟩ := print_lines other reason'
  rw [← same, hprint] at hprint'
  have hmargin : one.margin = other.margin := by rw [margin, margin, line]
  have hlater := (append_newline_inj hheading hheading' hprint').2
  rw [hmargin, line, List.append_cancel_left_eq, List.cons_inj_right,
    List.append_cancel_left_eq, List.append_cancel_left_eq] at hlater
  exact (append_newline_inj hone hother hlater).1

/-- The line that a complaint shows has no line feed. -/
theorem newline_notMem_content (text : List Char) (extent : Extent) :
    '\n' ∉ (of text extent).content := by
  have hbefore := newline_notMem_lastLine (text.take (text.length - extent.start))
  have hafter := newline_notMem_firstLine (text.drop (text.length - extent.start))
  exact fun h => (List.mem_append.mp h).elim hbefore hafter

/-- Complaints about a stretch of both documents say the same only if it begins on another line than
the text, or the texts are the same. -/
theorem print_eq_iff {swap : Swap} {extent : Extent} (regular : swap.Regular extent)
    (reason : String) :
    (of (swap.before ++ swap.there) (swap.moveExtent extent)).print reason =
        (of (swap.before ++ swap.here) extent).print reason ↔
      (of (swap.before ++ swap.here) extent).line ≠ swap.line ∨ swap.new = swap.old := by
  by_cases line : (of (swap.before ++ swap.here) extent).line = swap.line
  · constructor
    · intro same
      obtain ⟨hline, left, right, hold, hnew⟩ := of_replaced_line regular line
      have hcontent := content_of_print (hline.trans line.symm) (newline_notMem_content _ _)
        (newline_notMem_content _ _) same
      rw [hold, hnew, List.append_cancel_right_eq, List.append_cancel_left_eq,
        List.cons_inj_right] at hcontent
      exact .inr hcontent
    · rintro (hline | hsame)
      · exact absurd line hline
      · have hthere : swap.there = swap.here := by rw [Swap.there_eq, Swap.here_eq, hsame]
        rw [Swap.moveExtent_eq hthere, hthere]
  · simp [of_replaced_elsewhere regular line, line]

end Excerpt

end PongFixture.Toml
